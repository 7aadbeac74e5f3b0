import Tangle.Runtime.Runs
import Tangle.Runtime.StoredEvents

/-!
# Ephemeral events

An event of an ephemeral kind that belongs to no group is answered and not stored. The group service
makes no such test: an ephemeral event that names a group is stored when the service accepts it
(`Relay.EntersGroup`). It is the only way an ephemeral event is stored
(`ephemeral_unchanged_iff`), so in a run without it no stored event is ephemeral
(`ephemeral_never_stored`).
-/

namespace Tangle

open GroupEventView

/-- The happening submits the event, to its end or not. -/
inductive Happening.Submits (event : PocketEvent) (auth : GroupAuthContext) : Happening → Prop
  | submitted {result} : Submits event auth (.submitted event auth result)
  | stopped : Submits event auth (.submitStopped event auth)

/-- The world goes on with the same store, and with the same service when it is not stopped. -/
inductive World.Unchanged (groups : Option GroupServiceState) (store : PocketStore) : World → Prop
  | up : Unchanged groups store (.up groups store)
  | down : Unchanged groups store (.down store)

namespace Relay

/-- The event goes into a group: it passes the relay's checks as a normal event of the group, the
write policy accepts it, and the store neither has nor refuses it. -/
structure EntersGroup (relay : Relay) (state : GroupServiceState) (store : PocketStore)
    (event : PocketEvent) (auth : GroupAuthContext) (groupId : GroupId) : Prop where
  admitted : admitPocketEvent relay.pocket relay.limits event auth = .ok ()
  gate : validateClientGroupEventStructure event state.limits = .ok (.normal groupId)
  accepted : (state.writePolicy.checkEvent event (.normal groupId) auth).Succeeds
  absent : relay.db.findById store.events event.id = none
  taken : relay.db.refuses store.events event = none

/-- No ephemeral event that is submitted goes into a group. -/
def KeepsEphemeralOut (relay : Relay) : World → Happening → Prop
  | .up (some state) store, happening => ∀ event auth groupId, happening.Submits event auth →
      (eventKind event).isEphemeral = true → ¬ relay.EntersGroup state store event auth groupId
  | _, _ => True

end Relay

section
variable {relay : Relay} {event : PocketEvent} {auth : GroupAuthContext}
    {limits : GroupLimitsConfig}
  {store : PocketStore} {state : GroupServiceState} {groups : Option GroupServiceState}

/-! ## One event -/

/-- An ephemeral event that passes the gate is a normal event of a group, or of none. -/
theorem class_of_ephemeral {eventClass : GroupEventClass}
    (hkind : (eventKind event).isEphemeral = true)
    (hgate : validateClientGroupEventStructure event limits = .ok eventClass) :
    eventClass = .nonGroup ∨ ∃ groupId, eventClass = .normal groupId := by
  obtain ⟨hclass, hclient, _⟩ := class_of_gate hgate
  cases eventClass with
  | nonGroup => exact .inl rfl
  | normal groupId => exact .inr ⟨groupId, rfl⟩
  | relayGeneratedSnapshot kind groupId => exact absurd rfl (hclient kind groupId)
  | moderation kind groupId =>
    have hsame := kind_of_class (.inl hclass)
    unfold classifyGroupEvent at hclass
    rw [GroupEventView.kind_eq, Except.ok_bind, ← hsame] at hclass
    rw [← hsame] at hkind
    have hnot : isModerationKind kind = false := by
      rw [Kind.isEphemeral, Bool.and_eq_true, decide_eq_true_eq, decide_eq_true_eq] at hkind
      refine Bool.eq_false_iff.mpr fun hmoderation => ?_
      have hvalues : ∀ value ∈ nip29ModerationKindValues, value < 20000 := by decide
      have hlow := hvalues _ (List.contains_iff_mem.mp hmoderation)
      omega
    split at hclass
    · obtain ⟨_, _, h⟩ := Except.bind_eq_ok.mp hclass
      cases h
    · split at hclass
      · next hmoderation => exact absurd hmoderation (by rw [hnot]; exact Bool.false_ne_true)
      split at hclass
      · obtain ⟨_, _, h⟩ := Except.bind_eq_ok.mp hclass
        cases h
      · obtain ⟨_, _, h⟩ := Except.bind_eq_ok.mp hclass
        split at h
        · obtain ⟨found, _, h⟩ := Except.bind_eq_ok.mp h
          cases found with
          | none => cases h
          | some groupTag => cases h
        · cases h

/-- An ephemeral event of no group is not stored. -/
theorem wp_storePlainEvent_ephemeral {C : PocketStore → Prop} (hC : C store)
    (hkind : (eventKind event).isEphemeral = true) :
    Wp relay.db.handle C (storePlainEvent event) store (fun _ store' => store' = store)
      fun _ store' => store' = store := by
  unfold storePlainEvent
  rw [if_pos hkind]
  exact Wp.pure hC rfl

/-- The service changes nothing on an event that does not go into its group. -/
theorem wp_storeGroupPocketEvent_unchanged {groupId : GroupId}
    (hnot : (state.writePolicy.checkEvent event (.normal groupId) auth).Succeeds →
      relay.db.findById store.events event.id = none →
      relay.db.refuses store.events event ≠ none) :
    WpState relay.db.handle (· = store)
      (GroupServiceState.storeGroupPocketEvent relay.pocket event (.normal groupId) auth)
        state store
      (fun _ state' store' => state' = state ∧ store' = store)
      fun _ state' store' => state' = state ∧ store' = store := by
  refine WpState.get_seq (WpState.liftProg_seq (R := fun _ store' => store' = store ∧
    (state.writePolicy.checkEvent event (.normal groupId) auth).Succeeds)
    (Y := fun _ store' => store' = store) (Wp.adapt ?_) (fun _ checked _ ⟨hchecked, haccept⟩ => ?_)
    fun _ _ _ hsame => ⟨rfl, hsame⟩)
  · exact Wp.check_seq rfl (fun decision hdecision => Wp.pure rfl ⟨rfl, decision, hdecision⟩)
      fun _ _ => rfl
  subst hchecked
  refine WpState.liftProg_seq (R := fun present found => found = checked ∧
    present = relay.db.findById checked.events event.id) (Y := fun _ _ => False)
    (Wp.perform rfl rfl (fun present hread => ⟨rfl, (Except.ok.inj hread).symm⟩)
      fun e he => (nomatch he)) (fun present found _ ⟨hfound, hpresent⟩ => ?_)
    fun _ _ _ hX => hX.elim
  subst hfound hpresent
  split
  · exact WpState.pure rfl ⟨rfl, rfl⟩
  · next habsent =>
    have hrefused := hnot haccept (Option.not_isSome_iff_eq_none.mp habsent)
    refine WpState.liftProg_seq (wp_storeEvent rfl fun hrefuses => absurd hrefuses hrefused)
      (fun _ _ _ ⟨hrefuses, _⟩ => absurd hrefuses hrefused) fun _ _ _ ⟨_, hsame⟩ => ⟨rfl, hsame⟩

/-- **An ephemeral event that goes into no group changes nothing.** -/
theorem wp_submit_ephemeral (hkind : (eventKind event).isEphemeral = true)
    (hnot : ∀ state groupId, groups = some state →
      ¬ relay.EntersGroup state store event auth groupId) :
    WpState relay.db.handle (· = store) (relay.submit event auth) groups store
      (fun _ groups' store' => groups' = groups ∧ store' = store)
      fun _ groups' store' => groups' = groups ∧ store' = store := by
  unfold Relay.submit handlePocketEvent
  split
  · exact WpState.pure rfl ⟨rfl, rfl⟩
  next hadmitted =>
  refine WpState.get_seq ?_
  split
  · exact WpState.pure rfl ⟨rfl, rfl⟩
  · have hplain := @wp_storePlainEvent_ephemeral relay event store (· = store) rfl hkind
    exact WpState.liftProg (hplain.mono (fun _ _ _ hsame => ⟨rfl, hsame⟩)
      fun _ _ _ hsame => ⟨rfl, hsame⟩)
  · next eventClass hnonGroup hgate =>
    rcases class_of_ephemeral hkind hgate with rfl | ⟨groupId, rfl⟩
    · exact absurd rfl hnonGroup
    cases groups with
    | none => exact WpState.get_seq (WpState.pure rfl ⟨rfl, rfl⟩)
    | some state =>
      refine WpState.get_seq (WpState.seq (wp_withGroups (Y := fun _ _ _ => False)
        (wp_storeGroupPocketEvent_unchanged fun haccept hfind hrefuses => hnot state groupId rfl
          ⟨hadmitted, hgate, haccept, hfind, hrefuses⟩))
        (fun result groups' store' hstore' ⟨state', hgroups, hend⟩ => ?_) fun _ _ _ _ hX => hX.elim)
      subst hgroups
      rcases result with (error | error) | (offsets | _)
      · exact WpState.pure hstore' ⟨congrArg some hend.1, hend.2⟩
      · exact WpState.throw hstore' ⟨congrArg some hend.1, hend.2⟩
      · exact WpState.pure hstore' ⟨congrArg some hend.1, hend.2⟩
      · exact WpState.pure hstore' ⟨congrArg some hend.1, hend.2⟩

/-- No program takes an event out of the store. -/
theorem wp_events_prefix {τ ε α : Type} {p : StatefulProg storeInterface τ ε α} {t : τ}
    {events : List StoredEvent} (h : events <+: store.events) :
    WpState relay.db.handle (fun _ => True) p t store (fun _ _ store' => events <+: store'.events)
      fun _ _ store' => events <+: store'.events := by
  have hprefix := @PocketDb.events_prefix relay.db _ (p.run.run t) store _
    (Prog.run_mem_states _ _)
  refine ⟨fun _ _ => trivial, ?_⟩
  generalize Prog.run relay.db.handle (p.run.run t) store = result at hprefix ⊢
  obtain ⟨⟨e | a, t'⟩, store'⟩ := result
  · exact h.trans hprefix
  · exact h.trans hprefix

/-- **An event that goes into a group is stored**, however its write ends. -/
theorem wp_submit_enters {groupId : GroupId}
    (henters : relay.EntersGroup state store event auth groupId) :
    WpState relay.db.handle (fun _ => True) (relay.submit event auth) (some state) store
      (fun _ _ store' =>
        store.events ++ [⟨event, relay.db.nextOffset store.events⟩] <+: store'.events)
      fun _ _ store' =>
        store.events ++ [⟨event, relay.db.nextOffset store.events⟩] <+: store'.events := by
  obtain ⟨hadmitted, hgate, ⟨decision, haccepted⟩, habsent, htaken⟩ := henters
  have hcheck : Wp relay.db.handle (fun _ => True) (state.checkEvent event (.normal groupId) auth)
      store (fun _ store' => store' = store) fun _ _ => False := by
    unfold GroupServiceState.checkEvent
    rw [haccepted]
    exact Wp.pure trivial rfl
  let offset := relay.db.nextOffset store.events
  let events := store.events ++ [⟨event, offset⟩]
  have hwrite : WpState relay.db.handle (fun _ => True) (GroupServiceState.storeGroupPocketEvent
      relay.pocket event (.normal groupId) auth) state store
      (fun _ _ store' => events <+: store'.events) fun _ _ store' => events <+: store'.events := by
    refine WpState.get_seq (WpState.liftProg_seq (Y := fun _ _ => False) (Wp.adapt hcheck)
      (fun _ checked _ hchecked => ?_) fun _ _ _ hX => hX.elim)
    subst hchecked
    refine WpState.liftProg_seq (R := fun present found => found = checked ∧ present = none)
      (Y := fun _ _ => False) (Wp.perform trivial trivial
        (fun present hread => ⟨rfl, (Except.ok.inj hread).symm.trans habsent⟩)
        fun e he => (nomatch he)) (fun present found _ ⟨hfound, hpresent⟩ => ?_)
      fun _ _ _ hX => hX.elim
    subst hfound hpresent
    have hstore :=
      @exec_storeEvent relay.db _ (fun error => GroupEventWriteError.storage (.error error))
      found event
    rw [htaken] at hstore
    refine WpState.liftProg_seq (R := fun stored found => stored = offset ∧ events <+: found.events)
      (Y := fun _ _ => False) (Wp.of_exec hstore ⟨rfl, List.prefix_rfl⟩)
      (fun stored found _ ⟨hoffset, hstored⟩ => ?_) fun _ _ _ hX => hX.elim
    subst hoffset
    exact wp_events_prefix hstored
  unfold Relay.submit handlePocketEvent
  rw [hadmitted]
  refine WpState.get_seq ?_
  have hlimits : groupLimits (some state) = state.limits := rfl
  rw [hlimits, hgate]
  refine WpState.get_seq (WpState.seq (wp_withGroups (Y := fun _ _ _ => False) hwrite)
    (fun result groups' store' _ ⟨state', hgroups, hend⟩ => ?_) fun _ _ _ _ hX => hX.elim)
  rcases result with (error | error) | (offsets | _)
  · exact WpState.pure trivial hend
  · exact WpState.throw trivial hend
  · exact WpState.pure trivial hend
  · exact WpState.pure trivial hend

/-! ## Runs -/

/-- The kinds of the events the relay generates. -/
def generatedKinds : List Nat :=
  [kindGroupMetadata, kindGroupAdmins, kindGroupMembers, kindGroupPutUser, kindGroupRemoveUser]

/-- A record that is planned generates an event of one of these kinds. -/
theorem mem_generatedKinds_of_plan {pocket : PocketTypes} {eventClass : GroupEventClass}
    {projection : GroupProjection} {authority : GroupAuthority} {cap : UInt32}
    {before : Option Bool} {records : List GroupOutboxRecord}
    (h : planGroupOutboxRecords pocket event eventClass projection authority cap before =
      .ok records) : ∀ record ∈ records, record.payload.generatedKind ∈ generatedKinds := by
  intro record hrecord
  have hsub : ∀ kind ∈ [kindGroupMetadata, kindGroupAdmins, kindGroupMembers],
      kind ∈ generatedKinds := by decide
  rcases (owed_of_plan h hrecord).payload_kind with hkind | ⟨groupId, _, _, hpayload⟩ |
      ⟨groupId, _, _, hpayload⟩
  · exact hsub _ hkind
  · rw [hpayload]
    exact List.mem_of_getElem? (i := 3) rfl
  · rw [hpayload]
    exact List.mem_of_getElem? (i := 4) rfl

/-- No stored event is ephemeral, and no record of the outbox generates one that is. -/
structure PocketStore.Lasting (store : PocketStore) : Prop where
  events : ∀ item ∈ store.events, (eventKind item.event).isEphemeral = false
  records : ∀ (key : Text) (value : ExtraValue), store.outbox[key]? = some value →
    ∀ record, GroupOutboxRecord.fromJsonBytes value = .ok record →
      record.payload.generatedKind ∈ generatedKinds

/-- That nothing is ephemeral, part by part. -/
def lastingUpkeep : Upkeep where
  store := PocketStore.Lasting
  event event := (eventKind event).isEphemeral = false
  projection _ := True
  record record := record.payload.generatedKind ∈ generatedKinds
  authority _ := True

theorem PocketStore.Lasting.append {offset : StoreOffset} (h : store.Lasting)
    (hevent : (eventKind event).isEphemeral = false) :
    PocketStore.Lasting { store with events := store.events ++ [⟨event, offset⟩] } where
  events item hitem := by
    rcases List.mem_append.mp hitem with hitem | hitem
    · exact h.events item hitem
    · exact List.mem_singleton.mp hitem ▸ hevent
  records := h.records

theorem lastingUpkeep_starts (relay : Relay) (limits : GroupLimitsConfig) :
    lastingUpkeep.Starts relay limits where
  taken _ _ _ := trivial
  planned _ _ _ hplan := mem_generatedKinds_of_plan hplan
  marked hrecord _ hpayload := by
    change _ ∈ generatedKinds
    rw [hpayload]
    exact hrecord
  generated {record event builder} hrecord _ hkey hsign := by
    have hkind := (event_of_sign relay.lawful hkey hsign).1
    have hnone : ∀ kind ∈ generatedKinds, ¬ (20000 ≤ kind ∧ kind ≤ 29999) := by decide
    have hlast := hnone _ hrecord
    change (eventKind event).isEphemeral = false
    rw [Kind.isEphemeral, eventKind_value, hkind]
    simpa using hlast
  storeEvent hstore hevent _ := hstore.append hevent
  putRow hstore _ _ := ⟨hstore.events, hstore.records⟩
  putRecord hstore hrecord :=
    ⟨hstore.events, records_insert hstore.records hrecord⟩
  new := trivial
  authorized _ := trivial
  dated _ := trivial
  scanned hstore hitem := hstore.events _ hitem
  loaded _ _ := trivial
  loadedRecords hstore hload hget := by
    obtain ⟨text, value, hrow, hread⟩ := exists_row_of_loadGroupOutbox hload hget
    exact hstore.records text value hrow _ hread
  eraseRow hstore := ⟨hstore.events, hstore.records⟩
  putCheckpoint hstore := ⟨hstore.events, hstore.records⟩

/-- Nothing of the world is ephemeral. -/
def World.Lasting (relay : Relay) : World → Prop
  | .up groups store => store.Lasting ∧
      ∀ state, groups = some state → lastingUpkeep.Holds relay state.limits state
  | .down store => store.Lasting

theorem World.Lasting.lasting {w : World} (h : w.Lasting relay) : w.store.Lasting := by
  cases w with
  | up groups store => exact h.1
  | down store => exact h

/-- An event that is not ephemeral leaves nothing ephemeral behind. -/
theorem wp_submit_lasting (auth : GroupAuthContext) (hkind : (eventKind event).isEphemeral = false)
    (h : World.Lasting relay (.up groups store)) :
    WpState relay.db.handle PocketStore.Lasting (relay.submit event auth) groups store
      (fun _ groups' store' => World.Lasting relay (.up groups' store'))
      fun _ groups' store' => World.Lasting relay (.up groups' store') := by
  cases groups with
  | none =>
    have hend : ∀ groups' (store' : PocketStore), groups' = none ∧ store'.Lasting →
        World.Lasting relay (.up groups' store') := by
      intro groups' store' ⟨hgroups, hstore'⟩
      subst hgroups
      exact ⟨hstore', fun _ h => (nomatch h)⟩
    exact (wp_submit_off h.1 fun _ _ _ => h.1.append hkind).mono
      (fun _ groups' store' _ => hend groups' store') fun _ groups' store' _ => hend groups' store'
  | some state =>
    have hend : ∀ groups' (store' : PocketStore), store'.Lasting →
        (∃ state', groups' = some state' ∧ lastingUpkeep.Holds relay state.limits state') →
        World.Lasting relay (.up groups' store') := by
      intro groups' store' hstore' ⟨state', hgroups, hholds⟩
      subst hgroups
      refine ⟨hstore', fun found hfound => ?_⟩
      cases hfound
      exact hholds.limits.symm ▸ hholds
    exact (Upkeep.wp_submit (lastingUpkeep_starts relay state.limits).toWrites (h.2 state rfl) h.1
      (fun _ => hkind) (fun _ _ _ _ => trivial) fun _ _ _ => hkind).mono
      (fun _ groups' store' => hend groups' store') fun _ groups' store' => hend groups' store'

/-- A submission that keeps ephemeral events out leaves nothing ephemeral behind. -/
theorem wp_submit_keepsOut {happening : Happening} (hsubmits : happening.Submits event auth)
    (h : World.Lasting relay (.up groups store))
    (hallowed : relay.KeepsEphemeralOut (.up groups store) happening) :
    WpState relay.db.handle PocketStore.Lasting (relay.submit event auth) groups store
      (fun _ groups' store' => World.Lasting relay (.up groups' store'))
      fun _ groups' store' => World.Lasting relay (.up groups' store') := by
  cases hkind : (eventKind event).isEphemeral with
  | false => exact wp_submit_lasting auth hkind h
  | true =>
    have hnot : ∀ state groupId, groups = some state →
        ¬ relay.EntersGroup state store event auth groupId := by
      intro state groupId hgroups
      subst hgroups
      exact hallowed event auth groupId hsubmits hkind
    have hstep := (wp_submit_ephemeral hkind hnot).weaken fun _ hsame => hsame ▸ h.1
    exact hstep.mono (fun _ _ _ _ ⟨_, hgroups, hstore⟩ => hgroups ▸ hstore ▸ h)
      fun _ _ _ _ ⟨_, hgroups, hstore⟩ => hgroups ▸ hstore ▸ h

/-- Where no ephemeral event goes into a group, nothing is ephemeral. -/
theorem Relay.Reaches.lasting {w : World} (hw : relay.Reaches relay.KeepsEphemeralOut w) :
    w.Lasting relay := by
  refine hw.invariant (I := World.Lasting relay) ?_ fun {w happening w'} h hallowed hstep => ?_
  · refine ⟨fun _ h => (nomatch h), fun key value h => ?_⟩
    simp [PocketStore.empty] at h
  cases hstep with
  | @started config now store store' groups hrun =>
    obtain ⟨hstates, hresult⟩ := @Upkeep.keeps_start _ relay config now
      (lastingUpkeep_starts relay config.limits) store h
    have hend := hstates _ (Prog.run_mem_states _ _)
    unfold exec at hrun
    rw [hrun] at hend hresult
    refine ⟨hend, fun state hstate => ?_⟩
    have hholds := (hresult _ rfl state hstate).1
    exact hholds.limits.symm ▸ hholds
  | @startStopped config now store store' hmem =>
    exact (Upkeep.keeps_start (lastingUpkeep_starts relay config.limits) store h).1 store' hmem
  | @submitted event auth groups store result groups' store' _ hrun =>
    have hend := (wp_submit_keepsOut .submitted h hallowed).exec hrun
    cases result with
    | ok write => exact hend
    | error error => exact hend
  | submitStopped _ hmem => exact (wp_submit_keepsOut .stopped h hallowed).1 _ hmem
  | stopped => exact h.1

/-- An ephemeral event changes nothing when it goes into no group, and only then. -/
theorem ephemeral_unchanged_iff (hfits : event.Fits relay.codec)
    (hkind : (eventKind event).isEphemeral = true) :
    (∀ happening w', happening.Submits event auth → relay.Step (.up groups store) happening w' →
        World.Unchanged groups store w') ↔
      ∀ state groupId, groups = some state →
        ¬ relay.EntersGroup state store event auth groupId := by
  refine ⟨fun hsame state groupId hgroups henters => ?_, fun hnot happening w' hsubmits hstep => ?_⟩
  · subst hgroups
    rcases hrun : execState relay.db.handle (relay.submit event auth) (some state) store with
      ⟨result, groups', store'⟩
    have hstored := (wp_submit_enters henters).exec hrun
    have hlonger : (store.events ++
        [StoredEvent.mk event (relay.db.nextOffset store.events)]).length ≤
          store'.events.length := by
      cases result with
      | ok write => exact hstored.length_le
      | error error => exact hstored.length_le
    have hunchanged := hsame _ _ .submitted (.submitted hfits hrun)
    cases hunchanged
    rw [List.length_append, List.length_singleton] at hlonger
    omega
  · have hwp := wp_submit_ephemeral hkind hnot
    cases hsubmits with
    | @submitted result =>
      cases hstep with
      | @submitted _ _ _ _ _ groups' store' _ hrun =>
        have hend := hwp.exec hrun
        have hboth : groups' = groups ∧ store' = store := by
          cases result with
          | ok write => exact hend
          | error error => exact hend
        obtain ⟨hgroups, hstore⟩ := hboth
        subst hgroups hstore
        exact .up
    | stopped =>
      cases hstep with
      | submitStopped _ hmem =>
        have hstore := hwp.1 _ hmem
        subst hstore
        exact .down

/-- **Ephemeral events are stored only where they go into a group.** In a run in which none does, no
stored event is ephemeral; and whatever the relay has come to, an ephemeral event changes nothing
exactly when it goes into no group. -/
theorem ephemeral_never_stored (relay : Relay) :
    (∀ w, relay.Reaches relay.KeepsEphemeralOut w →
      ∀ item ∈ w.store.events, (eventKind item.event).isEphemeral = false) ∧
    ∀ groups store event auth, event.Fits relay.codec →
      (eventKind event).isEphemeral = true →
      ((∀ happening w', happening.Submits event auth → relay.Step (.up groups store) happening w' →
          World.Unchanged groups store w') ↔
        ∀ state groupId, groups = some state →
          ¬ relay.EntersGroup state store event auth groupId) :=
  ⟨fun _ hw => hw.lasting.lasting.events, fun _ _ _ _ => ephemeral_unchanged_iff⟩

end

namespace Sample

/-- An owner makes `farm` and sends it an ephemeral event. -/
def farmWhisper : List ScriptLine :=
  [.start config 100, .submit (farmEvent owner 9007 10 []) (authAs owner),
    .submit (farmEvent owner 20001 11 []) (authAs owner)]

end Sample

/-- An ephemeral event that names a group is stored: the check for ephemeral kinds stands on the way
of the events that are of no group, and this one goes into the group service. -/
theorem ephemeral_stored : ∃ w, Sample.relay.Reachable w ∧
    ∃ item ∈ w.store.events, (eventKind item.event).isEphemeral = true := by
  have hscript : Sample.relay.ScriptEnds (fun _ _ => true) Sample.farmWhisper fun _ store =>
      ∃ item ∈ store.events, (eventKind item.event).isEphemeral = true := by
    decide +kernel
  obtain ⟨state, store, hreach, hstored⟩ := hscript.reaches
  exact ⟨.up (some state) store, hreach.mono fun _ _ _ => trivial, hstored⟩

end Tangle
