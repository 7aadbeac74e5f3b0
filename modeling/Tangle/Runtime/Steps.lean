import Tangle.Lib.Wp
import Tangle.Runtime.Relay

/-!
# Single steps

What the small steps of the relay do to the store, whatever holds of it: storing an event, checking
one, storing one that is of no group, and handing the result of a write on.
-/

namespace Tangle

open GroupEventView

/-- The projection of `applyCanonicalEvent`, as `applyItem` names it. -/
theorem applyItem_of_applyCanonicalEvent {limits : GroupLimitsConfig}
    {projection : GroupProjection} {event : PocketEvent} {offset : StoreOffset}
    {result : ProjectionApplyOutcome × GroupProjection}
    (h : projection.applyCanonicalEvent event offset limits = .ok result) :
    applyItem limits projection ⟨event, offset⟩ = .ok result.2 := by
  simp [Tangle.applyItem, h]

theorem mem_sortByTuple {items : List CanonicalGroupEvent} {item : CanonicalGroupEvent} :
    item ∈ sortByTuple items ↔ item ∈ items :=
  List.mem_insertionSort _

variable {relay : Relay} {state : GroupServiceState} {store : PocketStore}

/-- Storing an event: it is appended, or the database refuses it. -/
theorem wp_storeEvent {db : PocketDb} {ε : Type} {wrap : String → ε} {event : PocketEvent}
    {C : PocketStore → Prop} (hC : C store)
    (hC' : db.refuses store.events event = none →
      C { store with events := store.events ++ [⟨event, db.nextOffset store.events⟩] }) :
    Wp db.handle C (StoreM.storeEvent wrap event) store
      (fun offset store' => db.refuses store.events event = none ∧
        offset = db.nextOffset store.events ∧
        store' = { store with events := store.events ++ [⟨event, offset⟩] })
      fun e store' => (∃ error, e = wrap error) ∧ store' = store := by
  have hreply : db.handle (.storeEvent event) store = db.storeEvent event store := rfl
  cases hrefuses : db.refuses store.events event with
  | some error =>
    have hrun : db.storeEvent event store = (.error error, store) := by
      rw [PocketDb.storeEvent, hrefuses]
    refine Wp.perform hC ?_ (fun _ hread => ?_) fun _ hread => ?_
    · rw [hreply, hrun]
      exact hC
    · rw [hreply, hrun] at hread
      cases hread
    · rw [hreply, hrun] at hread ⊢
      cases hread
      exact ⟨⟨error, rfl⟩, rfl⟩
  | none =>
    have hrun : db.storeEvent event store = (.ok (db.nextOffset store.events),
        { store with events := store.events ++ [⟨event, db.nextOffset store.events⟩] }) := by
      rw [PocketDb.storeEvent, hrefuses]
    refine Wp.perform hC ?_ (fun _ hread => ?_) fun _ hread => ?_
    · rw [hreply, hrun]
      exact hC' hrefuses
    · rw [hreply, hrun] at hread ⊢
      cases hread
      exact ⟨rfl, rfl, rfl⟩
    · rw [hreply, hrun] at hread
      cases hread

namespace GroupServiceState

/-- Checking an event only looks for another one by its id. -/
theorem keeps_checkEvent {σ : Type} {handle : Handler storeInterface σ} {I : σ → Prop}
    (hread : ∀ id, Keeps handle I (StoreM.eventById GroupError.internal id) fun _ => True)
    (event : PocketEvent) (eventClass : GroupEventClass) (auth : GroupAuthContext) :
    Keeps handle I (state.checkEvent event eventClass auth) fun _ => True := by
  refine Keeps.bind (Keeps.liftExcept fun _ _ => trivial) fun _ _ => ?_
  unfold checkRuntimeWriteConstraints
  split
  · split
    · refine Keeps.bind (Keeps.liftExcept fun _ _ => trivial) fun targetId _ => ?_
      refine (hread targetId).bind fun found _ => ?_
      split
      · exact Keeps.throw
      · refine Keeps.bind (Keeps.liftExcept fun _ _ => trivial) fun targetClass _ => ?_
        split
        · exact Keeps.throw
        · exact Keeps.pure trivial
    · exact Keeps.pure trivial
  · exact Keeps.pure trivial

/-- Checking an event changes nothing. -/
theorem wp_checkEvent {event : PocketEvent} {eventClass : GroupEventClass} {auth : GroupAuthContext}
    {C : PocketStore → Prop} (hC : C store) :
    Wp relay.db.handle C (state.checkEvent event eventClass auth) store
      (fun _ store' => store' = store ∧
        (exec relay.db.handle (state.checkEvent event eventClass auth) store).1 = .ok ())
      fun _ store' => store' = store := by
  have hkeeps :=
    (@keeps_checkEvent state _ relay.db.handle (· = store) keeps_eventById event eventClass auth
    store rfl).1
  refine Wp.of_states (fun t ht => (hkeeps t ht).symm ▸ hC) ?_
  have hend : (exec relay.db.handle (state.checkEvent event eventClass auth) store).2 = store :=
    hkeeps _ (Prog.run_mem_states _ _)
  cases hresult : (exec relay.db.handle (state.checkEvent event eventClass auth) store).1 with
  | ok done => exact ⟨hend, rfl⟩
  | error e => exact hend

/-- Looking for an event by its id changes nothing. -/
theorem wp_generatedEventAlreadyStored {id : EventId} {C : PocketStore → Prop}
    {X : BaseRelayError → PocketStore → Prop} (hC : C store) :
    Wp relay.db.handle C (generatedEventAlreadyStored id) store (fun present store' =>
      store' = store ∧ (present = true → relay.db.Faithful →
        ∃ item ∈ store.events, item.event.id = id) ∧
      (present = false → ∀ item ∈ store.events, item.event.id ≠ id)) X := by
  refine Wp.seq (R := fun found store' => store' = store ∧
    found = relay.db.findById store.events id) (Wp.perform hC hC (fun found hfound => ?_)
      fun e he => (nomatch he)) (fun found store' _ ⟨hstore, hfound⟩ => ?_) fun _ _ _ hX => hX
  · exact ⟨rfl, (Except.ok.inj hfound).symm⟩
  · subst hstore
    split
    · next hsome =>
      refine Wp.pure hC ⟨rfl, fun _ hdb => ?_, fun h => (nomatch h)⟩
      obtain ⟨event, hevent⟩ := Option.isSome_iff_exists.mp hsome
      exact hdb.found (hfound.symm.trans hevent)
    · refine Wp.seq (R := fun stored store'' => store'' = store' ∧ stored = store'.events)
        (Wp.perform hC hC (fun stored hstored => ?_) fun e he => (nomatch he))
        (fun stored store'' _ ⟨hstore, hstored⟩ => ?_) fun _ _ _ hX => hX
      · exact ⟨rfl, (Except.ok.inj hstored).symm⟩
      · subst hstore hstored
        refine Wp.pure hC ⟨rfl, fun hany _ => ?_, fun hnone item hitem heq => ?_⟩
        · obtain ⟨item, hitem, heq⟩ := List.any_eq_true.mp hany
          exact ⟨item, hitem, beq_iff_eq.mp heq⟩
        · exact List.any_eq_false.mp hnone item hitem (beq_iff_eq.mpr heq)

end GroupServiceState

/-- A plain event is stored, refused, found or not to be kept. -/
theorem wp_storePlainEvent {event : PocketEvent} {C : PocketStore → Prop} (hC : C store)
    (hC' : relay.db.findById store.events event.id = none →
      relay.db.refuses store.events event = none →
      C { store with events := store.events ++ [⟨event, relay.db.nextOffset store.events⟩] }) :
    Wp relay.db.handle C (storePlainEvent event) store
      (fun _ store' => store' = store ∨ relay.db.findById store.events event.id = none ∧
        relay.db.refuses store.events event = none ∧ store' = { store with
          events := store.events ++ [⟨event, relay.db.nextOffset store.events⟩] })
      fun _ store' => store' = store := by
  unfold storePlainEvent
  split
  · exact Wp.pure hC (.inl rfl)
  refine Wp.seq (Wp.perform (Q := fun present found => found = store ∧
    present = relay.db.findById store.events event.id) (X := fun _ _ => False) hC hC
    (fun present hread => ⟨rfl, (Except.ok.inj hread).symm⟩) fun e he => (nomatch he))
    (fun present found _ ⟨hfound, hpresent⟩ => ?_) fun _ _ _ hX => hX.elim
  subst hfound hpresent
  split
  · exact Wp.pure hC (.inl rfl)
  · next habsent =>
    have hfind := Option.not_isSome_iff_eq_none.mp habsent
    refine Wp.seq (wp_storeEvent hC (hC' hfind))
      (fun offset stored hstored ⟨hrefuses, hoffset, hstore⟩ => ?_)
      fun _ _ _ ⟨_, hrefused⟩ => hrefused
    subst hoffset hstore
    exact Wp.pure hstored (.inr ⟨hfind, hrefuses, rfl⟩)

/-- Without the service the relay stores plain events only. -/
theorem wp_submit_off {event : PocketEvent} {auth : GroupAuthContext} {C : PocketStore → Prop}
    (hC : C store) (hC' : classifyGroupEvent event .default = .ok .nonGroup →
      relay.db.findById store.events event.id = none →
      relay.db.refuses store.events event = none →
      C { store with events := store.events ++ [⟨event, relay.db.nextOffset store.events⟩] }) :
    WpState relay.db.handle C (relay.submit event auth) none store
      (fun _ groups store' => groups = none ∧ C store') fun _ groups store' => groups = none ∧
        C store' := by
  unfold Relay.submit handlePocketEvent
  split
  · exact WpState.pure hC ⟨rfl, hC⟩
  refine WpState.get_seq ?_
  split
  · exact WpState.pure hC ⟨rfl, hC⟩
  · next hgate =>
    exact WpState.liftProg ((wp_storePlainEvent hC (hC' (class_of_gate hgate).1)).mono
      (fun _ _ hstored _ => ⟨rfl, hstored⟩) fun _ _ hstored _ => ⟨rfl, hstored⟩)
  · exact WpState.get_seq (WpState.pure hC ⟨rfl, hC⟩)

/-- A write of the service, with its result handed on. -/
theorem wp_withGroups {α σ : Type} {handle : Handler storeInterface σ} {p : WriteM α}
    {groups : Option GroupServiceState} {C : σ → Prop} {s : σ}
    {Q : α → GroupServiceState → σ → Prop}
    {X : GroupEventWriteError → GroupServiceState → σ → Prop}
    {Y : BaseRelayError → Option GroupServiceState → σ → Prop}
    (hp : WpState handle C p state s Q X) :
    WpState handle C (withGroups p state) groups s
      (fun result groups s' => ∃ state', groups = some state' ∧
        Ends (fun a => Q a state') (fun e => X e state') result s') Y := by
  refine Prog.safe_bind.mpr (Prog.Safe.mono hp fun result s' hC hend => ?_)
  exact Prog.safe_pure.mpr ⟨hC, result.2, rfl, hend⟩

end Tangle
