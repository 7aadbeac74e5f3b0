import Tangle.Runtime.Offsets
import Tangle.Runtime.Runs
import Tangle.Runtime.Script
import Tangle.Runtime.Starting

/-!
# What a process publishes

When an event has been handled, the offsets of its report are published, so that sessions are sent
what was stored; an error has no report. `Publishes` is what a process has published since its
start, while operations of its store may fail. As long as none fails after the event of the write is
stored, and what the event owes can be generated, every event stored since the start has been
published, and none twice (`published_all`).
-/

namespace Tangle

open GroupServiceState

/-- The offsets that are published when an event has been handled. -/
def publishedOffsets : Except BaseRelayError BaseRelayEventWrite → List StoreOffset
  | .ok write => write.storedOffsets
  | .error _ => []

namespace Relay

/-- Handles an event while operations of the store fail; also returns what the store was asked. -/
def submitFaulty (relay : Relay) (faults : List (Option StoreFault)) (event : PocketEvent)
    (auth : GroupAuthContext) (groups : Option GroupServiceState) (store : PocketStore) :
    Except BaseRelayError BaseRelayEventWrite × Option GroupServiceState × PocketStore ×
      List StoreExchange :=
  match execState relay.faultyHandle (relay.submit event auth) groups ([], faults, store) with
  | (result, groups', log, _, store') => (result, groups', store', log)

/-- What a process has published since its start, and where it is: it handles events one after
another, and any operation of its store may fail. -/
inductive Publishes (relay : Relay)
    (allowed : Option GroupServiceState → PocketStore → PocketEvent →
      List StoreExchange → Prop)
    (start : PocketStore) : List StoreOffset → Option GroupServiceState → PocketStore → Prop
  | started {before : PocketStore} {config : GroupRuntimeConfig} {now : UnixTimestamp}
      {groups : Option GroupServiceState} :
      relay.Step (.down before) (.started config now) (.up groups start) →
      Publishes relay allowed start [] groups start
  | submitted {published : List StoreOffset} {groups groups' : Option GroupServiceState}
      {store store' : PocketStore} {faults : List (Option StoreFault)} {event : PocketEvent}
      {auth : GroupAuthContext} {result : Except BaseRelayError BaseRelayEventWrite}
      {log : List StoreExchange} :
      Publishes relay allowed start published groups store → event.Fits relay.codec →
      relay.submitFaulty faults event auth groups store = (result, groups', store', log) →
      allowed groups store event log →
      Publishes relay allowed start (published ++ publishedOffsets result) groups' store'

end Relay

/-! ## Starts -/

section
variable {relay : Relay} {state : GroupServiceState}

/-- A loaded outbox holds its records under their keys. -/
theorem keyed_of_loadGroupOutbox {records : List (Text × ExtraValue)} {outbox : GroupOutbox}
    (h : loadGroupOutbox records = .ok outbox) : outbox.Keyed := by
  refine Except.foldlM_invariant GroupOutbox.Keyed (fun before row after _ hbefore hnext => ?_)
    (fun key record hget => ?_) h
  · obtain ⟨record, _, hafter⟩ := Except.bind_eq_ok.mp hnext
    cases hafter
    exact hbefore.update record
  · rw [GroupOutbox.get, GroupOutbox.new, BTreeMap.getElem?_empty] at hget
    cases hget

theorem keyed_of_loadGroupStorage {limits : GroupLimitsConfig} {now : UnixTimestamp} :
    Keeps relay.db.handle (fun _ => True) (loadGroupStorage limits now) fun storage =>
      storage.outbox.Keyed := by
  have hrest : ∀ projection records, Keeps relay.db.handle (fun _ => True) (do
      return (⟨projection, ← liftM (loadGroupOutbox records)⟩ : GroupStorageState) :
        BaseM GroupStorageState) fun storage => storage.outbox.Keyed := fun projection records =>
    Keeps.bind (Q := GroupOutbox.Keyed) (Keeps.liftExcept fun outbox hload =>
      keyed_of_loadGroupOutbox hload) fun outbox houtbox => Keeps.pure houtbox
  refine Keeps.any.bind fun status _ => Keeps.any.bind fun records _ => ?_
  split
  · exact Keeps.any.bind fun scan _ => Keeps.any.bind fun report _ => Keeps.any.bind fun _ _ =>
      Keeps.any.bind fun _ _ => hrest _ _
  · exact Keeps.any.bind fun rows _ => Keeps.any.bind fun projection _ => Keeps.any.bind fun _ _ =>
      hrest _ _

/-- The steps of a start keep the outbox in order. -/
theorem keeps_deriveMissing_keyed : KeepsState relay.db.handle (fun _ => True)
    (fun state => state.outbox.Keyed ∧ 0 < state.outboxReplayBatchCap.toNat)
    (deriveMissingOutboxRecords relay.pocket) fun _ => True := by
  have hmerge : ∀ record, KeepsState relay.db.handle (fun _ => True)
      (fun state => state.outbox.Keyed ∧ 0 < state.outboxReplayBatchCap.toNat)
      (mergeRecord record) fun _ => True := by
    intro record
    refine KeepsState.get.bind fun state ⟨hkeyed, hcap⟩ => ?_
    refine KeepsState.bind (Q := fun merged => merged.2.Keyed)
      (KeepsState.liftExcept fun merged hmerged => ?_) fun merged hmerged => ?_
    · exact hkeyed.mergeIdempotent (Except.mapError_eq_ok.mp hmerged)
    · refine (KeepsState.set ⟨hmerged, hcap⟩).bind fun _ _ => ?_
      split
      · exact KeepsState.liftProg Keeps.any
      · exact KeepsState.pure trivial
  refine KeepsState.get.bind fun state _ => (KeepsState.liftProg Keeps.any).bind fun scan _ => ?_
  refine KeepsState.bind (Q :=
    fun _ => True) (KeepsState.foldlM trivial fun projection _ item _ => ?_)
    fun _ _ => KeepsState.pure trivial
  refine KeepsState.get.bind fun state _ => ?_
  refine KeepsState.bind (Q := fun _ => True) (KeepsState.liftExcept fun _ _ => trivial)
    fun eventClass _ => ?_
  refine KeepsState.bind (Q := fun _ => True) (KeepsState.liftExcept fun _ _ => trivial)
    fun before _ => ?_
  refine KeepsState.bind (Q := fun _ => True) (KeepsState.liftExcept fun _ _ => trivial)
    fun result _ => ?_
  obtain ⟨_, projection'⟩ := result
  dsimp only
  split
  · exact KeepsState.pure trivial
  · refine KeepsState.bind (Q := fun _ => True) (KeepsState.liftExcept fun _ _ => trivial)
      fun records _ => ?_
    exact (KeepsState.forM fun record _ => hmerge record).bind fun _ _ => KeepsState.pure trivial

/-- After a start nothing waits to be generated. -/
theorem atRest_of_started {config : GroupRuntimeConfig} {now : UnixTimestamp}
    {before store : PocketStore}
    (h : relay.Step (.down before) (.started config now) (.up (some state) store)) :
    state.AtRest := by
  have hstart : Wp relay.db.handle (fun _ => True) (relay.start config now) before
      (fun groups _ => ∀ state, groups = some state → state.AtRest) fun _ _ => True := by
    unfold Relay.start fromConfig
    split
    · exact Wp.pure trivial fun _ h => (nomatch h)
    refine Wp.check_seq trivial (fun signer _ => ?_) fun _ _ => trivial
    refine Wp.seq (Wp.of_keeps keyed_of_loadGroupStorage trivial)
      (fun storage loaded _ hkeyed => ?_)
      fun _ _ _ _ => trivial
    have hfinish : WpState relay.db.handle (fun _ => True) (finishStart relay.pocket)
        (ofStorage config signer storage) loaded (fun _ state _ => state.AtRest)
        fun _ _ _ => True := by
      refine WpState.seq (WpState.of_keeps keeps_deriveMissing_keyed
        ⟨hkeyed, config.maxOutboxReplayBatch_pos⟩ trivial)
        (fun _ derived store₁ _ ⟨⟨hkeyed, hcap⟩, _⟩ => ?_) fun _ _ _ _ _ => trivial
      refine WpState.seq (wp_materializeWith_appends (.self : relay.AnsweredBy _ _ _ _) trivial
        hkeyed hcap) (fun _ finished store₂ _ ⟨hsetup, _, hkeyed', hfinal⟩ => ?_)
        fun _ _ _ _ _ => trivial
      refine WpState.pure trivial ⟨hkeyed', by rw [hsetup.outboxReplayBatchCap]; exact hcap, ?_⟩
      exact fun key record hget => hfinal.settled hkeyed hget fun _ _ => rfl
    refine Wp.seq (wp_runFrom hfinish) (fun started _ _ hrest => ?_) fun _ _ _ _ => trivial
    exact Wp.pure trivial fun state h => Option.some.inj h ▸ hrest
  cases h with
  | started hexec => exact hstart.exec hexec state rfl

/-! ## Writes -/

/-- No operation fails once an event has been stored, nor does the one that stores it, whose flush
comes after it has been committed. -/
def NothingFailsLate (log : List StoreExchange) : Prop :=
  (∀ exchange ∈ log, exchange.stored = true → exchange.failed = false) ∧
    log.Pairwise fun earlier later => earlier.stored = true → later.failed = false

instance (log : List StoreExchange) : Decidable (NothingFailsLate log) :=
  inferInstanceAs (Decidable (_ ∧ List.Pairwise _ log))

/-- An event has been stored. -/
def HasStored (log : List StoreExchange) : Prop :=
  ∃ exchange ∈ log, exchange.stored = true

instance (log : List StoreExchange) : Decidable (HasStored log) :=
  inferInstanceAs (Decidable (∃ exchange ∈ log, _))

/-- An operation that fails behind one that has stored an event fails late. -/
theorem not_nothingFailsLate {before log : List StoreExchange} (h : HasStored before)
    (hfailed : FailedBehind before log) : ¬NothingFailsLate log := by
  rintro ⟨_, hnothing⟩
  obtain ⟨later, rfl, exchange, hexchange, hfailed⟩ := hfailed
  obtain ⟨earlier, hearlier, hstored⟩ := h
  have hnot := (List.pairwise_append.mp hnothing).2.2 earlier hearlier exchange hexchange hstored
  exact Bool.false_ne_true (hnot.symm.trans hfailed)

/-- An exchange that leaves an event more has stored it. -/
theorem StoreExchange.stored_of_append {exchange : StoreExchange} {item : StoredEvent}
    (h : exchange.after.events = exchange.before.events ++ [item]) : exchange.stored = true := by
  unfold StoreExchange.stored
  rw [h, List.length_append]
  exact decide_eq_true (Nat.lt_succ_self _)

/-- Storing an event, with the log: an error leaves the store alone, or it comes when the event has
been stored, which is late. -/
theorem wp_storeEvent_logged {ε : Type} {wrap : String → ε} {event : PocketEvent}
    {s : List StoreExchange × List (Option StoreFault) × PocketStore} :
    Wp relay.faultyHandle (fun _ => True) (StoreM.storeEvent wrap event) s
      (fun offset s' => (offset = relay.db.nextOffset s.2.2.events ∧
        s'.2.2 = { s.2.2 with events := s.2.2.events ++ [⟨event, offset⟩] }) ∧ HasStored s'.1)
      fun e s' => (∃ error, e = wrap error) ∧
        (s'.2.2 = s.2.2 ∨ HasStored s'.1 ∧ ¬NothingFailsLate s'.1) := by
  have hlogged : Wp relay.faultyHandle (fun _ => True) (StoreM.storeEvent wrap event) s
      (fun _ s' => ∃ exchange : StoreExchange, exchange ∈ s'.1 ∧ exchange.before = s.2.2 ∧
        exchange.after = s'.2.2)
      fun e s' => (∃ error, e = wrap error) ∧ ∃ exchange : StoreExchange, exchange ∈ s'.1 ∧
        exchange.before = s.2.2 ∧ exchange.after = s'.2.2 ∧ exchange.failed = true := by
    refine Wp.perform trivial trivial (fun offset _ => ?_) fun e hread => ?_
    · exact ⟨_, List.mem_append_right _ (List.mem_singleton_self _), rfl, rfl⟩
    · obtain ⟨error, herror, hwrap⟩ := Except.mapError_eq_error.mp hread
      refine ⟨⟨error, hwrap.symm⟩, _, List.mem_append_right _ (List.mem_singleton_self _), rfl, rfl,
        ?_⟩
      exact congrArg (fun reply => !Except.isOk reply) herror
  have hstore := @Relay.AnsweredBy.wp_storeEvent _ _ _ _ _ _ s _ wrap
    (relay.answeredBy_faultyHandle []) (List.nil_prefix ..) event
  refine (hlogged.and hstore).mono (fun offset s' _ ⟨hexchange, hoffset, _, hstored⟩ => ?_)
    fun e s' _ ⟨⟨hwrap, hexchange⟩, _, hend⟩ => ⟨hwrap, ?_⟩
  · obtain ⟨exchange, hmem, hbefore, hafter⟩ := hexchange
    have hmore : exchange.after.events = exchange.before.events ++ [⟨event, offset⟩] := by
      rw [hafter, hbefore, hstored]
    exact ⟨⟨hoffset, hstored⟩, exchange, hmem, StoreExchange.stored_of_append hmore⟩
  · obtain ⟨exchange, hmem, hbefore, hafter, hfailed⟩ := hexchange
    rcases hend with hsame | ⟨_, hstored⟩
    · exact .inl hsame
    · have hmore : exchange.after.events =
          exchange.before.events ++ [⟨event, relay.db.nextOffset s.2.2.events⟩] := by
        rw [hafter, hbefore, hstored]
      have hdone := StoreExchange.stored_of_append hmore
      refine .inr ⟨⟨exchange, hmem, hdone⟩, fun hnothing => ?_⟩
      exact Bool.false_ne_true ((hnothing.1 exchange hmem hdone).symm.trans hfailed)

/-- The write has stored its event and then failed: if it can be completed, an operation has failed
late. -/
structure FailsStored (completes : Prop) (log : List StoreExchange) : Prop where
  stored : HasStored log
  late : completes → ¬NothingFailsLate log

/-- A write reports what it has stored, or it fails before it has stored its event or afterwards. -/
theorem wp_storeGroupPocketEvent_appends {event : PocketEvent} {eventClass : GroupEventClass}
    {auth : GroupAuthContext} {faults : List (Option StoreFault)} {store : PocketStore}
    (hrest : state.AtRest) (hgroup : eventClass.groupId.isSome = true) :
    WpState relay.faultyHandle (fun _ => True)
      (storeGroupPocketEvent relay.pocket event eventClass auth) state ([], faults, store)
      (fun write state' s' => state'.AtRest ∧ Appends store s'.2.2
        (match write with | .stored offsets => offsets | .duplicate => []))
      fun error state' s' => s'.2.2.events = store.events ∧ state' = state ∨
        (∃ failure, error = .storage failure) ∧ FailsStored
          (state.Completes relay event eventClass (relay.db.nextOffset store.events)) s'.1 := by
  have hf := relay.answeredBy_faultyHandle []
  have hsteady : ∀ {log : List StoreExchange}, [] <+: log := List.nil_prefix
  refine WpState.get_seq (WpState.liftProg_seq (R := fun _ s => s.2.2 = store)
    (Y := fun _ s => s.2.2 = store) (Wp.adapt ((wp_checkEvent_view hf hsteady event eventClass
      auth).forget.mono (fun _ _ _ h => h.2) fun _ _ _ h => h.2)) (fun _ s₁ _ hview => ?_)
    fun _ s₁ _ hview => .inl ⟨by rw [hview], rfl⟩)
  refine WpState.liftProg_seq (R := fun _ s => s.2.2 = store) (Y := fun _ s => s.2.2 = store)
    ((hf.wp_eventById hsteady event.id).forget.mono (fun _ _ _ h => h.2.2.trans hview)
      fun _ _ _ h => h.2.2.trans hview) (fun present s₂ _ hview₂ => ?_)
    fun _ s₂ _ hview => .inl ⟨by rw [hview], rfl⟩
  split
  · exact WpState.pure trivial ⟨hrest, .of_events (by rw [hview₂])⟩
  · refine WpState.liftProg_seq wp_storeEvent_logged
      (fun offset s₃ _ ⟨⟨hoffset, hstored⟩, hlog⟩ => ?_)
      fun _ s₃ _ ⟨⟨error, herror⟩, hend⟩ => hend.imp
        (fun hview₃ => ⟨by rw [hview₃, hview₂], rfl⟩)
        fun ⟨hstored, hlate⟩ => ⟨⟨.error error, herror⟩, hstored, fun _ => hlate⟩
    rw [hview₂] at hoffset hstored
    have happended : Appends store s₃.2.2 [offset] := ⟨[⟨event, offset⟩], by rw [hstored], rfl⟩
    have hafter := @wp_afterSourceEventStored_appends _ _ _ _ _ _ s₃ state
      (relay.answeredBy_faultyHandle s₃.1) event eventClass offset (List.prefix_refl _) hrest hgroup
    refine WpState.seq (R := fun offsets state' s' => Appends s₃.2.2 s'.2.2 offsets ∧ state'.AtRest)
      (Y := fun error _ s' => (∃ failure, error = .storage failure) ∧
        FailsStored (state.Completes relay event eventClass offset) s'.1)
      (WpState.adapt ((hafter.weaken fun _ _ => trivial).mono (fun _ _ _ _ h => h.2)
        fun error _ s' _ ⟨⟨later, hlater⟩, hbroken⟩ => ⟨⟨error, rfl⟩, ?_, fun hcompletes => ?_⟩))
      (fun offsets state' s' _ ⟨happends, hrest'⟩ => ?_) fun _ _ _ _ h => .inr (hoffset ▸ h)
    · obtain ⟨exchange, hexchange, hstored⟩ := hlog
      exact ⟨exchange, hlater ▸ List.mem_append_left _ hexchange, hstored⟩
    · exact not_nothingFailsLate hlog (hbroken hcompletes)
    · exact WpState.pure trivial ⟨hrest', happended.trans happends⟩

/-- A plain event is reported when it is stored; an error has stored nothing, or it comes late. -/
theorem wp_storePlainEvent_appends {event : PocketEvent} {faults : List (Option StoreFault)}
    {store : PocketStore} : Wp relay.faultyHandle (fun _ => True) (storePlainEvent event)
      ([], faults, store) (fun write s' => Appends store s'.2.2 write.storedOffsets)
      fun _ s' => s'.2.2.events = store.events ∨ HasStored s'.1 ∧ ¬NothingFailsLate s'.1 := by
  have hf := relay.answeredBy_faultyHandle []
  unfold storePlainEvent
  split
  · exact Wp.pure trivial (.of_events rfl)
  refine Wp.seq (R := fun _ s => s.2.2 = store) (Y := fun _ s => s.2.2 = store)
    ((hf.wp_eventById List.nil_prefix event.id).forget.mono (fun _ _ _ h => h.2.2)
      fun _ _ _ h => h.2.2) (fun present s₁ _ hview => ?_) fun _ _ _ hview => .inl (by rw [hview])
  split
  · exact Wp.pure trivial (.of_events (by rw [hview]))
  · refine Wp.seq wp_storeEvent_logged (fun offset s₂ _ ⟨⟨_, hstored⟩, _⟩ => ?_)
      fun _ _ _ ⟨_, hend⟩ => hend.imp_left fun hview₂ => by rw [hview₂, hview]
    rw [hview] at hstored
    exact Wp.pure trivial ⟨[⟨event, offset⟩], by rw [hstored], rfl⟩

/-- Everything that follows the storing of an event can be done. -/
def SubmissionCompletes (relay : Relay) (groups : Option GroupServiceState) (store : PocketStore)
    (event : PocketEvent) : Prop :=
  ∀ state eventClass, groups = some state →
    classifyGroupEvent event state.limits = .ok eventClass → eventClass ≠ .nonGroup →
      state.Completes relay event eventClass (relay.db.nextOffset store.events)

/-- **A report names what was stored.** A submission that fails has stored nothing, unless what
follows cannot be done or an operation has failed late. -/
theorem wp_submit_appends {groups : Option GroupServiceState} {event : PocketEvent}
    {auth : GroupAuthContext} {faults : List (Option StoreFault)} {store : PocketStore}
    (hrest : ∀ state, groups = some state → state.AtRest) :
    WpState relay.faultyHandle (fun _ => True) (relay.submit event auth) groups ([], faults, store)
      (fun write groups' s' => (∀ state, groups' = some state → state.AtRest) ∧
        Appends store s'.2.2 write.storedOffsets)
      fun _ groups' s' => s'.2.2.events = store.events ∧ groups' = groups ∨
        FailsStored (SubmissionCompletes relay groups store event) s'.1 := by
  have hstay : Appends store store [] := .of_events rfl
  unfold Relay.submit handlePocketEvent
  split
  · exact WpState.pure trivial ⟨hrest, hstay⟩
  refine WpState.get_seq ?_
  split
  · exact WpState.pure trivial ⟨hrest, hstay⟩
  · exact WpState.liftProg (wp_storePlainEvent_appends.mono (fun _ _ _ h => ⟨hrest, h⟩)
      fun _ _ _ h => h.imp (fun hevents => ⟨hevents, rfl⟩) fun ⟨hstored, hlate⟩ =>
        ⟨hstored, fun _ => hlate⟩)
  · next eventClass hnonGroup hgate =>
    refine WpState.get_seq ?_
    cases groups with
    | none => exact WpState.pure trivial ⟨hrest, hstay⟩
    | some state =>
      obtain ⟨hclass, _, _⟩ := class_of_gate hgate
      have hgroup : eventClass.groupId.isSome = true := by
        cases eventClass with
        | nonGroup => exact absurd rfl hnonGroup
        | _ => rfl
      refine WpState.seq (wp_withGroups (Y := fun _ _ _ => False)
        (wp_storeGroupPocketEvent_appends (hrest state rfl) hgroup))
        (fun result groups' s' _ ⟨state', hgroups, hend⟩ => ?_) fun _ _ _ _ hX => hX.elim
      subst hgroups
      have hrests : ∀ {state' : GroupServiceState}, state'.AtRest →
          ∀ other, some state' = some other → other.AtRest :=
        fun hrest' _ h => Option.some.inj h ▸ hrest'
      cases result with
      | ok write =>
        obtain ⟨hrest', happends⟩ := hend
        cases write with
        | stored offsets => exact WpState.pure trivial ⟨hrests hrest', happends⟩
        | duplicate => exact WpState.pure trivial ⟨hrests hrest', happends⟩
      | error failure =>
        cases failure with
        | rejected error =>
          rcases hend with ⟨hevents, hstate⟩ | ⟨⟨_, hstorage⟩, _⟩
          · subst hstate
            exact WpState.pure trivial ⟨hrest, .of_events hevents⟩
          · cases hstorage
        | storage error =>
          refine WpState.throw trivial ?_
          rcases hend with ⟨hevents, hstate⟩ | ⟨_, hfails⟩
          · exact .inl ⟨hevents, hstate ▸ rfl⟩
          · exact .inr ⟨hfails.stored, fun hcompletes =>
              hfails.late (hcompletes state eventClass rfl hclass hnonGroup)⟩

/-! ## The order of offsets -/

/-- Behind its first events the store holds more, at greater and greater offsets. -/
def Grows (start store : PocketStore) : Prop :=
  ∃ items, store.events = start.events ++ items ∧
    items.Pairwise fun a b => a.storeOffset < b.storeOffset

/-- The next offset behind some events depends on the last of them. -/
theorem PocketDb.nextOffset_append {db : PocketDb} {events items : List StoredEvent}
    (h : items ≠ []) : db.nextOffset (events ++ items) = db.nextOffset items := by
  rw [nextOffset, nextOffset, List.getLast?_append_of_ne_nil _ h]

theorem Grows.append {start store store' : PocketStore} {db : PocketDb} {event : PocketEvent}
    (h : Grows start store) (hevents : store'.events =
      store.events ++ [⟨event, db.nextOffset store.events⟩]) : Grows start store' := by
  obtain ⟨items, hstore, hordered⟩ := h
  refine ⟨items ++ [⟨event, db.nextOffset store.events⟩], ?_, ?_⟩
  · rw [hevents, hstore, List.append_assoc]
  · refine List.pairwise_append.mpr ⟨hordered, List.pairwise_singleton _ _, fun a ha b hb => ?_⟩
    cases List.mem_singleton.mp hb
    have hlt := @PocketDb.lt_nextOffset db _ hordered a ha
    rw [hstore, PocketDb.nextOffset_append (List.ne_nil_of_mem ha)]
    exact hlt

/-- No submission breaks the order. -/
theorem Grows.submitFaulty {start store store' : PocketStore} {faults : List (Option StoreFault)}
    {event : PocketEvent} {auth : GroupAuthContext} {groups groups' : Option GroupServiceState}
    {result : Except BaseRelayError BaseRelayEventWrite} {log : List StoreExchange}
    (h : Grows start store) (hsubmit : relay.submitFaulty faults event auth groups store =
      (result, groups', store', log)) : Grows start store' := by
  have hstates := Prog.states_of_operations (h := relay.faultyHandle)
    (R := fun s s' => Grows start s.2.2 → Grows start s'.2.2) (fun _ h => h)
    (fun h h' hs => h' (h hs)) (fun o s hs => ?_) ((relay.submit event auth).run.run groups)
    ([], faults, store) _ (Prog.run_mem_states _ _) h
  · unfold Relay.submitFaulty execState at hsubmit
    generalize Prog.run relay.faultyHandle ((relay.submit event auth).run.run groups)
      ([], faults, store) = run at hsubmit hstates
    obtain ⟨⟨_, _⟩, _, _, _⟩ := run
    cases hsubmit
    exact hstates
  · rcases (relay.answeredBy_faultyHandle []).leaves o s with hsame | hsame
    · exact hsame ▸ hs
    · rcases relay.db.events_handle o s.2.2 with hevents | ⟨stored, hevents⟩
      · obtain ⟨items, hitems, hordered⟩ := hs
        exact ⟨items, by rw [hsame, hevents, hitems], hordered⟩
      · exact hs.append (by rw [hsame, hevents])

/-! ## Runs -/

/-- No operation of the store fails once the event is stored, and if it is stored, all that follows
can be done. -/
structure GoesThrough (relay : Relay) (groups : Option GroupServiceState) (store : PocketStore)
    (event : PocketEvent) (log : List StoreExchange) : Prop where
  nothingLate : NothingFailsLate log
  completes : HasStored log → SubmissionCompletes relay groups store event

/-- **Every stored event is published.** In a process whose submissions all go through, the offsets
of the events that have been stored since its start have been published, in their order, and none
twice. -/
theorem published_all {start store : PocketStore} {published : List StoreOffset}
    {groups : Option GroupServiceState}
    (h : relay.Publishes (GoesThrough relay) start published groups store) :
    ∃ items, store.events = start.events ++ items ∧
      items.map StoredEvent.storeOffset = published ∧ published.Nodup := by
  have hkept : (∀ state, groups = some state → state.AtRest) ∧ Appends start store published ∧
      Grows start store := by
    induction h with
    | started hstart =>
      refine ⟨fun state hstate => ?_, .of_events rfl, [], (List.append_nil _).symm, .nil⟩
      subst hstate
      exact atRest_of_started hstart
    | submitted _ _ hsubmit hthrough ih =>
      rename_i published groups groups' store store' faults event auth result log _ _
      obtain ⟨hrest, happends, hgrows⟩ := ih
      have hgrows' := hgrows.submitFaulty hsubmit
      have hwp := @wp_submit_appends relay groups event auth faults store hrest
      unfold Relay.submitFaulty at hsubmit
      rcases hexec : execState relay.faultyHandle (relay.submit event auth) groups
        ([], faults, store) with ⟨result', groups'', log', faults', store''⟩
      rw [hexec] at hsubmit
      cases hsubmit
      have hend := hwp.exec hexec
      cases result with
      | ok write => exact ⟨hend.1, happends.trans hend.2, hgrows'⟩
      | error error =>
        rcases hend with ⟨hevents, hgroups⟩ | hfails
        · exact ⟨hgroups ▸ hrest, happends.trans (.of_events hevents), hgrows'⟩
        · exact absurd hthrough.nothingLate (hfails.late (hthrough.completes hfails.stored))
  obtain ⟨_, ⟨items, hevents, hoffsets⟩, others, hothers, hordered⟩ := hkept
  obtain rfl := List.append_cancel_left (hevents.symm.trans hothers)
  refine ⟨items, hevents, hoffsets, hoffsets ▸ List.pairwise_map.mpr (hordered.imp fun hlt => ?_)⟩
  exact Nat.ne_of_lt hlt

end

namespace Sample

/-- A relay with the group `farm`, which was stopped. -/
def farmAtRest : List ScriptLine :=
  [.start config 100, .submit (farmEvent owner 9007 10 []) (authAs owner), .stop]

/-- A post to the group. -/
def farmPost (createdAt : UnixTimestamp) : PocketEvent :=
  farmEvent owner 1 createdAt []

/-- A post is submitted while operations fail. -/
def firstPost (faults : List (Option StoreFault)) (state : GroupServiceState)
    (store : PocketStore) :=
  relay.submitFaulty faults (farmPost 20) (authAs owner) (some state) store

/-- Another post is submitted after it. -/
def secondPost (faults : List (Option StoreFault)) (state : GroupServiceState)
    (store : PocketStore) :=
  let (_, groups, store', _) := firstPost faults state store
  relay.submitFaulty [] (farmPost 30) (authAs owner) groups store'

/-- What has been published when both have been handled. -/
def bothPublished (faults : List (Option StoreFault)) (state : GroupServiceState)
    (store : PocketStore) : List StoreOffset :=
  publishedOffsets (firstPost faults state store).1 ++
    publishedOffsets (secondPost faults state store).1

/-- The submissions are steps of a process. -/
theorem publishes_posts {allowed : Option GroupServiceState → PocketStore → PocketEvent →
      List StoreExchange → Prop} {before start : PocketStore} {now : UnixTimestamp}
    {state : GroupServiceState} (faults : List (Option StoreFault))
    (hstart : relay.Step (.down before) (.started config now) (.up (some state) start))
    (hfirst : allowed (some state) start (farmPost 20) (firstPost faults state start).2.2.2)
    (hsecond : allowed (firstPost faults state start).2.1 (firstPost faults state start).2.2.1
      (farmPost 30) (secondPost faults state start).2.2.2) :
    relay.Publishes allowed start (bothPublished faults state start)
      (secondPost faults state start).2.1 (secondPost faults state start).2.2.1 :=
  .submitted (.submitted (.started hstart) (by decide) rfl hfirst) (by decide) rfl hsecond

end Sample

section
open Sample

/-- One fault after the first post was committed: the post is stored, its author is told of an
error, and it is not published, not even with the next post. -/
theorem post_not_published : ∃ start published groups store first second,
    relay.Publishes (fun _ _ _ _ => True) start published groups store ∧
      store.events = start.events ++ [⟨farmPost 20, first⟩, ⟨farmPost 30, second⟩] ∧
      published = [second] ∧ first ≠ second := by
  have hscript : relay.ScriptEnds (fun _ _ => true) (farmAtRest ++ [.start config 200])
      fun state store =>
        let first := relay.db.nextOffset store.events
        let second := relay.db.nextOffset (store.events ++ [⟨farmPost 20, first⟩])
        (secondPost [none, none, some (.operation "disk is full")] state store).2.2.1.events =
            store.events ++ [⟨farmPost 20, first⟩, ⟨farmPost 30, second⟩] ∧
          bothPublished [none, none, some (.operation "disk is full")] state store = [second] ∧
          first ≠ second := by
    decide +kernel
  obtain ⟨before, state, start, _, hstart, hevents, hpublished, hne⟩ :=
    @Relay.ScriptEnds.started _ (fun _ _ _ => True) _ _ _ _ _ hscript fun _ => trivial
  exact ⟨start, _, _, _, _, _, publishes_posts _ hstart trivial trivial, hevents, hpublished, hne⟩

/-- A fault before the first post was committed: the submissions all go through, only the second
post is stored, and it is published. -/
theorem published_all_secondPost : ∃ start published groups store items,
    relay.Publishes (GoesThrough relay) start published groups store ∧
      store.events = start.events ++ items ∧ items.map StoredEvent.storeOffset = published ∧
      published.Nodup := by
  have hscript : relay.ScriptEnds (fun _ _ => true) (farmAtRest ++ [.start config 200])
      fun state store =>
        NothingFailsLate (firstPost [some (.operation "busy")] state store).2.2.2 ∧
          ¬HasStored (firstPost [some (.operation "busy")] state store).2.2.2 ∧
          NothingFailsLate (secondPost [some (.operation "busy")] state store).2.2.2 ∧
          (firstPost [some (.operation "busy")] state store).2.1.any (fun state' =>
            decide (classifyGroupEvent (farmPost 30) state'.limits = .ok (.normal farm)) &&
            decide (projectStored relay.pocket state' (farmPost 30) (.normal farm)
              (relay.db.nextOffset
                (firstPost [some (.operation "busy")] state store).2.2.1.events) =
                .ok [])) = true := by
    decide +kernel
  obtain ⟨before, state, start, _, hstart, hfirst, hnot, hsecond, hposts⟩ :=
    @Relay.ScriptEnds.started _ (fun _ _ _ => True) _ _ _ _ _ hscript fun _ => trivial
  have hcompletes : SubmissionCompletes relay (firstPost [some (.operation "busy")] state start).2.1
      (firstPost [some (.operation "busy")] state start).2.2.1 (farmPost 30) := by
    intro state' eventClass hgroups hclass _
    rw [hgroups, Option.any_some, Bool.and_eq_true] at hposts
    have hnormal := of_decide_eq_true hposts.1
    cases hnormal.symm.trans hclass
    exact ⟨[], of_decide_eq_true hposts.2, ⟨_, rfl⟩, fun _ h => (nomatch h)⟩
  have hthrough : GoesThrough relay (some state) start (farmPost 20)
      (firstPost [some (.operation "busy")] state start).2.2.2 := ⟨hfirst, fun h => absurd h hnot⟩
  have hthrough' : GoesThrough relay (firstPost [some (.operation "busy")] state start).2.1
      (firstPost [some (.operation "busy")] state start).2.2.1 (farmPost 30)
      (secondPost [some (.operation "busy")] state start).2.2.2 := ⟨hsecond, fun _ => hcompletes⟩
  have hrun := publishes_posts [some (.operation "busy")] hstart hthrough hthrough'
  obtain ⟨items, hevents, hoffsets, hnodup⟩ := published_all hrun
  exact ⟨start, _, _, _, items, hrun, hevents, hoffsets, hnodup⟩

end

end Tangle
