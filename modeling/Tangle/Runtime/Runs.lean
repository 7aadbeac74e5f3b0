import Mathlib.Logic.Relation
import Tangle.Runtime.Script
import Tangle.Runtime.Starting

/-!
# Runs

A run is a sequence of steps of the relay. Every write may be stopped between any two operations of
the store, and every start after it has loaded the store; a start that is stopped while it writes
the projection is left out (`Relay.Orderly`). In such runs the store stays sound, and a service
that is up has seen what it must (`Relay.Leads.kept`).
-/

namespace Tangle

/-- The store of a relay. -/
def World.store : World → PocketStore
  | .up _ store | .down store => store

namespace Relay

variable (relay : Relay)

/-- A start that does not succeed: it fails, or it is stopped after it has loaded the store. -/
inductive StartFails (config : GroupRuntimeConfig) (now : UnixTimestamp) (store : PocketStore) :
    PocketStore → Prop
  | failed {error store'} :
      exec relay.db.handle (relay.start config now) store = (.error error, store') →
        StartFails config now store store'
  | stopped {signer storage loaded store'} :
      GroupServiceState.configuredSigner relay.pocket config = .ok signer →
        exec relay.db.handle (loadGroupStorage config.limits now) store = (.ok storage, loaded) →
        store' ∈ ((GroupServiceState.finishStart relay.pocket).run.run
          (GroupServiceState.ofStorage config signer storage)).states relay.db.handle loaded →
        StartFails config now store store'

/-- No start is stopped while it loads the store. -/
def Orderly (w : World) (happening : Happening) (w' : World) : Prop :=
  ∀ config now, happening = .startStopped config now →
    relay.StartFails config now w.store w'.store

/-- No start and no write is stopped, and no write fails. -/
def Uninterrupted (_ : World) (happening : Happening) (_ : World) : Prop :=
  match happening with
  | .started _ _ | .submitted _ _ (.ok _) | .stopped => True
  | .startStopped _ _ | .submitted _ _ (.error _) | .submitStopped _ _ => False

/-- Allowed steps lead from one world to the other. -/
def Leads (allowed : World → Happening → World → Prop) : World → World → Prop :=
  Relation.ReflTransGen fun w w' => ∃ happening, relay.Step w happening w' ∧ allowed w happening w'

/-- On the way to a world the event was submitted to a service. -/
def SubmittedTo (allowed : World → Happening → World → Prop) (w : World) (event : PocketEvent)
    (auth : GroupAuthContext) (state : GroupServiceState) : Prop :=
  ∃ store happening w', relay.Leads allowed (.down .empty) (.up (some state) store) ∧
    ((∃ result, happening = .submitted event auth result) ∨
      happening = .submitStopped event auth) ∧
    relay.Step (.up (some state) store) happening w' ∧
    allowed (.up (some state) store) happening w' ∧ relay.Leads allowed w' w

/-- On the way to a world the event was submitted to a service that accepted it. -/
def AcceptedBefore (allowed : World → Happening → World → Prop) (w : World) (event : PocketEvent) :
    Prop :=
  ∃ state eventClass auth, relay.SubmittedTo allowed w event auth state ∧
    validateClientGroupEventStructure event state.limits = .ok eventClass ∧
    (state.writePolicy.checkEvent event eventClass auth).Succeeds

/-- A start on the way to a world was configured with the key. -/
def ConfiguredBefore (allowed : World → Happening → World → Prop) (w : World)
    (signer : RelaySigner) : Prop :=
  ∃ config now store happening w', relay.Leads allowed (.down .empty) (.down store) ∧
    (happening = .started config now ∨ happening = .startStopped config now) ∧
    relay.Step (.down store) happening w' ∧ allowed (.down store) happening w' ∧
    relay.Leads allowed w' w ∧ GroupServiceState.configuredSigner relay.pocket config = .ok signer

/-- Where the events of a world come from. -/
def sourcesOf (allowed : World → Happening → World → Prop) (w : World) : Sources where
  client := relay.AcceptedBefore allowed w
  signer := relay.ConfiguredBefore allowed w

end Relay

/-- The store is sound, and a service that is up has seen what it must. -/
def World.Kept (relay : Relay) (sources : Sources) (must : StoredEvent → Prop) : World → Prop
  | .up (some state) store => Serves relay sources must state store
  | .up none store | .down store => store.Sound relay sources

variable {relay : Relay} {sources sources' : Sources} {must : StoredEvent → Prop} {w w' : World}
  {happening : Happening} {allowed : World → Happening → World → Prop}

/-- What is kept of a world has a sound store. -/
theorem World.Kept.sound (h : w.Kept relay sources must) : w.store.Sound relay sources := by
  cases w with
  | down store => exact h
  | up groups store =>
    cases groups with
    | none => exact h
    | some state => exact Serves.sound h

/-- What is kept of a world is kept with wider sources. -/
theorem World.Kept.within (h : w.Kept relay sources must) (hwithin : sources.Within sources') :
    w.Kept relay sources' must := by
  cases w with
  | down store => exact PocketStore.Sound.within h hwithin
  | up groups store =>
    cases groups with
    | none => exact PocketStore.Sound.within h hwithin
    | some state => exact Serves.within h hwithin

/-- **One step.** A step whose event the sources know, and whose start has a key they know, keeps
the store sound; a service that goes on after a failed write has seen the deletions of groups. -/
theorem World.Kept.step (hmust : MustSee must) (h : w.Kept relay sources must)
    (hclient : ∀ state store event auth eventClass, w = .up (some state) store →
      ((∃ result, happening = .submitted event auth result) ∨
        happening = .submitStopped event auth) →
      validateClientGroupEventStructure event state.limits = .ok eventClass →
      (state.writePolicy.checkEvent event eventClass auth).Succeeds → sources.client event)
    (hsigner : ∀ config now signer,
      (happening = .started config now ∨ happening = .startStopped config now) →
      GroupServiceState.configuredSigner relay.pocket config = .ok signer → sources.signer signer)
    (hfail : must = Deletion ∨ ∀ event auth error, happening ≠ .submitted event auth (.error error))
    (horderly : relay.Orderly w happening w') (hstep : relay.Step w happening w') :
    w'.Kept relay sources must := by
  cases hstep with
  | started hrun =>
    rename_i config now store store' groups
    have hend := (wp_start h fun signer hconfigured =>
      hsigner config now signer (.inl rfl) hconfigured).exec hrun
    rcases hend with ⟨hgroups, hstore⟩ | ⟨state, hgroups, hstarted⟩
    · subst hgroups hstore
      exact h
    · subst hgroups
      exact hstarted.serves.weaken fun _ _ => trivial
  | startStopped hstop =>
    rename_i config now store store'
    have hknown := fun signer => hsigner config now signer (.inr rfl)
    cases horderly config now rfl with
    | failed hrun => exact (wp_start h hknown).exec hrun
    | stopped hconfigured hload hfinish =>
      exact sound_of_finishStopped h hconfigured (hknown _ hconfigured) hload hfinish
  | submitted hfits hrun =>
    rename_i event auth groups store result groups' store'
    cases groups with
    | none =>
      have hend := (wp_submit_none h).exec hrun
      cases result with
      | ok write => exact hend.1 ▸ hend.2
      | error error => exact hend.1 ▸ hend.2
    | some state =>
      have hend := (wp_submit hmust h fun eventClass hgate hpolicy =>
        hclient state store event auth eventClass rfl (.inl ⟨_, rfl⟩) hgate hpolicy).exec hrun
      cases result with
      | ok write =>
        obtain ⟨state', hgroups, hserved⟩ := hend
        subst hgroups
        exact hserved.serves
      | error error =>
        obtain ⟨state', hgroups, hfailed⟩ := hend
        subst hgroups
        rcases hfail with hdeletion | hnever
        · exact hdeletion ▸ hfailed.serves
        · exact absurd rfl (hnever event auth error)
  | submitStopped hfits hstop =>
    rename_i event auth groups store store'
    cases groups with
    | none => exact (wp_submit_none h).1 _ hstop
    | some state =>
      exact (wp_submit hmust h fun eventClass hgate hpolicy =>
        hclient state store event auth eventClass rfl (.inr rfl) hgate hpolicy).1 _ hstop
  | stopped =>
    rename_i groups store
    exact h.sound

namespace Relay

/-- One step more at the end of a way. -/
theorem Leads.tail {w₀ : World} (h : relay.Leads allowed w₀ w) (hstep : relay.Step w happening w')
    (hallowed : allowed w happening w') : relay.Leads allowed w₀ w' :=
  Relation.ReflTransGen.tail h ⟨happening, hstep, hallowed⟩

/-- One step is a way. -/
theorem Leads.single (hstep : relay.Step w happening w') (hallowed : allowed w happening w') :
    relay.Leads allowed w w' :=
  Relation.ReflTransGen.single ⟨happening, hstep, hallowed⟩

/-- One way after another. -/
theorem Leads.trans {w₀ : World} (h : relay.Leads allowed w₀ w) (h' : relay.Leads allowed w w') :
    relay.Leads allowed w₀ w' :=
  Relation.ReflTransGen.trans h h'

/-- What may be the source of an event where a way begins may be one where it ends. -/
theorem sourcesOf_within (h : relay.Leads allowed w w') :
    (relay.sourcesOf allowed w).Within (relay.sourcesOf allowed w') where
  client _ :=
    fun ⟨state, eventClass, auth, ⟨store, happening, w₁, hbefore, hsubmits, hstep, hallowed,
      hafter⟩, haccepted⟩ =>
    ⟨state, eventClass, auth, ⟨store, happening, w₁, hbefore, hsubmits, hstep, hallowed,
      hafter.trans h⟩, haccepted⟩
  signer _ :=
    fun ⟨config, now, store, happening, w₁, hbefore, hstart, hstep, hallowed, hafter, hkey⟩ =>
    ⟨config, now, store, happening, w₁, hbefore, hstart, hstep, hallowed, hafter.trans h, hkey⟩

/-- **A run.** Wherever orderly steps lead, the store is sound, and a service that is up has seen
what it must. -/
theorem Leads.kept (hmust : MustSee must)
    (hallowed : ∀ {w happening w'}, allowed w happening w' → relay.Orderly w happening w' ∧
      (must = Deletion ∨ ∀ event auth error, happening ≠ .submitted event auth (.error error)))
    (h : relay.Leads allowed (.down .empty) w) :
    w.Kept relay (relay.sourcesOf allowed w) must := by
  induction h with
  | refl => exact PocketStore.Sound.empty
  | @tail w w' hrun hlast ih =>
    obtain ⟨happening, hstep, hstepAllowed⟩ := hlast
    have hone := Leads.single hstep hstepAllowed
    obtain ⟨horderly, hfail⟩ := hallowed hstepAllowed
    refine World.Kept.step hmust (ih.within (sourcesOf_within hone))
      (fun state store event auth eventClass hw hsubmits hgate hpolicy => ?_)
      (fun config now signer hstart hkey => ?_) hfail horderly hstep
    · subst hw
      exact ⟨state, eventClass, auth, ⟨store, happening, w', hrun, hsubmits, hstep, hstepAllowed,
        .refl⟩, hgate, hpolicy⟩
    · obtain ⟨store, rfl⟩ : ∃ store, w = .down store := by
        cases hstep with
        | started => exact ⟨_, rfl⟩
        | startStopped => exact ⟨_, rfl⟩
        | submitted => rcases hstart with h | h <;> cases h
        | submitStopped => rcases hstart with h | h <;> cases h
        | stopped => rcases hstart with h | h <;> cases h
      exact ⟨config, now, store, happening, w', hrun, hstart, hstep, hstepAllowed, .refl, hkey⟩

/-- Steps that nothing interrupts are orderly, and no submission of them fails. -/
theorem Uninterrupted.orderly (h : Uninterrupted w happening w') :
    relay.Orderly w happening w' := by
  intro config now heq
  subst heq
  exact h.elim

/-- Where nothing is interrupted no submission fails. -/
theorem Uninterrupted.not_failed (h : Uninterrupted w happening w') (event : PocketEvent)
    (auth : GroupAuthContext) (error : BaseRelayError) :
    happening ≠ .submitted event auth (.error error) := by
  rintro rfl
  exact h.elim

end Relay

/-! ## Events stay -/

/-- No operation takes an event out of the store. -/
theorem PocketDb.events_prefix_handle (db : PocketDb) (o : StoreOp) (store : PocketStore) :
    store.events <+: (db.handle o store).2.events := by
  rcases db.events_handle o store with hsame | ⟨event, hstored⟩
  · exact hsame ▸ List.prefix_refl _
  · exact hstored ▸ List.prefix_append _ _

/-- No program takes an event out of the store. -/
theorem PocketDb.events_prefix {db : PocketDb} {α : Type} (p : Prog storeInterface α)
    (store : PocketStore) : ∀ store' ∈ p.states db.handle store, store.events <+: store'.events :=
  Prog.states_of_operations (R := fun store store' => store.events <+: store'.events)
    (fun _ => List.prefix_refl _) List.IsPrefix.trans db.events_prefix_handle p store

namespace Relay

/-- What every operation does to the store, a step has done. -/
theorem Step.of_operations {R : PocketStore → PocketStore → Prop} (hrefl : ∀ store, R store store)
    (htrans : ∀ {s t u}, R s t → R t u → R s u)
    (hop : ∀ o store, R store (relay.db.handle o store).2) (h : relay.Step w happening w') :
    R w.store w'.store := by
  cases h with
  | started hrun =>
    rename_i config now store store' groups
    have hend : (exec relay.db.handle (relay.start config now) store).2 = store' := by rw [hrun]
    exact hend ▸ Prog.states_of_operations hrefl htrans hop _ _ _ (Prog.run_mem_states _ _)
  | startStopped hstop => exact Prog.states_of_operations hrefl htrans hop _ _ _ hstop
  | submitted hfits hrun =>
    rename_i event auth groups store result groups' store'
    have hend :=
      @Prog.run_mem_states _ _ _ relay.db.handle ((relay.submit event auth).run.run groups)
      store
    have hstore : (Prog.run relay.db.handle ((relay.submit event auth).run.run groups) store).2 =
        store' := by
      unfold execState at hrun
      rcases hend' : Prog.run relay.db.handle ((relay.submit event auth).run.run groups) store with
        ⟨⟨_, _⟩, _⟩
      rw [hend'] at hrun
      cases hrun
      rfl
    exact hstore ▸ Prog.states_of_operations hrefl htrans hop _ _ _ hend
  | submitStopped hfits hstop => exact Prog.states_of_operations hrefl htrans hop _ _ _ hstop
  | stopped => exact hrefl _

/-- A step adds events behind those that are stored, and takes none away. -/
theorem Step.events_prefix (h : relay.Step w happening w') :
    w.store.events <+: w'.store.events :=
  h.of_operations (R := fun store store' => store.events <+: store'.events)
    (fun _ => List.prefix_refl _) List.IsPrefix.trans relay.db.events_prefix_handle

/-- What was stored stays. -/
theorem Leads.events_prefix (h : relay.Leads allowed w w') :
    w.store.events <+: w'.store.events := by
  induction h with
  | refl => exact List.prefix_refl _
  | tail _ hlast ih =>
    obtain ⟨happening, hstep, _⟩ := hlast
    exact ih.trans hstep.events_prefix

/-! ## Scripts -/

/-- A script that ends leads there, by the steps that its lines make. -/
theorem leads_of_lines (allows : World → Happening → Bool)
    (himp : ∀ {w happening w'}, allows w happening = true → allowed w happening w')
    {lines : List ScriptLine} (h : lines.foldlM (fun w line => do
      let (happening, w') ← relay.runLine w line
      if allows w happening then some w' else none) w = some w') : relay.Leads allowed w w' := by
  induction lines generalizing w with
  | nil => cases h; exact .refl
  | cons line rest ih =>
    rw [List.foldlM_cons] at h
    obtain ⟨next, hnext, hrest⟩ := Option.bind_eq_some_iff.mp h
    obtain ⟨⟨happening, w₁⟩, hline, hallows⟩ := Option.bind_eq_some_iff.mp hnext
    dsimp only at hallows
    split at hallows
    · next hallowed =>
      cases hallows
      exact (Leads.single (step_of_runLine hline) (himp hallowed)).trans (ih hrest)
    · cases hallows

/-- A script leads through the world that its first part ends in. -/
theorem ScriptEnds.leads {allows : World → Happening → Bool} {before after : List ScriptLine}
    {P : GroupServiceState → PocketStore → Prop}
    (h : relay.ScriptEnds allows (before ++ after) P)
    (himp : ∀ {w happening w'}, allows w happening = true → allowed w happening w') :
    ∃ w state store, relay.runScript allows before = some w ∧
      relay.Leads allowed (.down .empty) w ∧ relay.Leads allowed w (.up (some state) store) ∧
      P state store := by
  unfold ScriptEnds at h
  split at h
  · next state store hrun =>
    unfold runScript at hrun
    rw [List.foldlM_append] at hrun
    obtain ⟨w, hbefore, hafter⟩ := Option.bind_eq_some_iff.mp hrun
    exact ⟨w, state, store, hbefore, leads_of_lines allows himp hbefore,
      leads_of_lines allows himp hafter, h⟩
  · exact h.elim

/-- A script that ends with a start. -/
theorem ScriptEnds.started {allows : World → Happening → Bool} {lines : List ScriptLine}
    {config : GroupRuntimeConfig} {now : UnixTimestamp}
    {P : GroupServiceState → PocketStore → Prop}
    (h : relay.ScriptEnds allows (lines ++ [.start config now]) P)
    (himp : ∀ {w happening w'}, allows w happening = true → allowed w happening w') :
    ∃ stopped state store, relay.Leads allowed (.down .empty) (.down stopped) ∧
      relay.Step (.down stopped) (.started config now) (.up (some state) store) ∧
        P state store := by
  unfold ScriptEnds at h
  split at h
  · next state store hrun =>
    unfold runScript at hrun
    rw [List.foldlM_append] at hrun
    obtain ⟨w, hbefore, hafter⟩ := Option.bind_eq_some_iff.mp hrun
    obtain ⟨w', hlast, hend⟩ := Option.bind_eq_some_iff.mp hafter
    cases hend
    obtain ⟨⟨happening, w'⟩, hline, hallows⟩ := Option.bind_eq_some_iff.mp hlast
    dsimp only at hallows
    split at hallows
    · cases hallows
      have hstep := step_of_runLine hline
      cases w with
      | up groups store => cases hline
      | down stopped =>
        simp only [runLine] at hline
        split at hline
        · cases hline
          exact ⟨stopped, state, store, leads_of_lines allows himp hbefore, hstep, h⟩
        · cases hline
    · cases hallows
  · exact h.elim

/-- Whether a happening is no start that was stopped. -/
def stopsNoStart (_ : World) : Happening → Bool
  | .startStopped _ _ => false
  | .started _ _ | .submitted _ _ _ | .submitStopped _ _ | .stopped => true

/-- A happening that stops no start is orderly. -/
theorem orderly_of_stopsNoStart (h : stopsNoStart w happening = true) :
    relay.Orderly w happening w' := by
  intro config now heq
  subst heq
  cases h

/-- Whether a happening is neither stopped nor a submission that failed. -/
def interruptsNothing (_ : World) : Happening → Bool
  | .started _ _ | .submitted _ _ (.ok _) | .stopped => true
  | .startStopped _ _ | .submitted _ _ (.error _) | .submitStopped _ _ => false

/-- A happening that interrupts nothing is uninterrupted. -/
theorem uninterrupted_of_interruptsNothing (h : interruptsNothing w happening = true) :
    Uninterrupted w happening w' := by
  unfold interruptsNothing at h
  split at h
  · trivial
  · trivial
  · trivial
  · cases h
  · cases h
  · cases h

end Relay

end Tangle
