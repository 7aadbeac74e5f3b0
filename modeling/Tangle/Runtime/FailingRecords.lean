import Tangle.Runtime.Runs

/-!
# Records whose events cannot be made

A record whose generated event cannot be built or stored stays in the outbox as one to try again,
and is tried again in every write of its group and in every start. It fails each time, and what
fails ends the write or the start: so as long as it fails, no write of its group is reported as
stored, and the relay does not start (`failingRecord_wedges`). This holds wherever a relay has got
to, whatever was stopped on the way: what is used of a store is only that its outbox table is that
of the service's outbox (`Tends`).
-/

namespace Tangle

section
variable {relay : Relay} {state state' : GroupServiceState} {store store' : PocketStore}
  {record : GroupOutboxRecord}

/-! ## Records that fail -/

/-- From these events on the event of the payload cannot be stored: it cannot be built, or it is not
there and the database refuses every event of its id. -/
def Relay.NeverStores (relay : Relay) (builder : GroupGeneratedEventBuilder)
    (events : List StoredEvent) (payload : GroupOutboxPayload) : Prop :=
  ∀ event, builder.signPayloadPocket relay.pocket payload = .ok event →
    (∀ item ∈ events, item.event.id ≠ event.id) ∧
    ∀ later other, events <+: later → other.id = event.id → relay.db.refuses later other ≠ none

/-- The record is one to try again, and its event is generated when it is tried. -/
def GroupOutboxRecord.IsTried (record : GroupOutboxRecord) : Prop :=
  record.isRetryable = true ∧
    ¬(record.key.effect = .roleListSnapshot ∨ record.key.effect = .state39004Snapshot)

/-- The record is in the outbox, and its event cannot be stored. -/
structure Waits (relay : Relay) (record : GroupOutboxRecord) (state : GroupServiceState)
    (store : PocketStore) : Prop where
  held : state.outbox.get record.key = some record
  tried : record.IsTried
  fails : relay.NeverStores state.builder store.events record.payload

/-- The table holds the records of some outbox. -/
def HoldsSome (store : PocketStore) : Prop :=
  ∃ outbox, HoldsRecords outbox store.outbox

/-- The table holds the records of the service's outbox, and replays take batches. -/
structure Tends (state : GroupServiceState) (store : PocketStore) : Prop where
  rows : HoldsRecords state.outbox store.outbox
  batch : 0 < state.outboxReplayBatchCap.toNat

/-- The records of the service's outbox are those of some outbox. -/
theorem Tends.some (h : Tends state store) : HoldsSome store :=
  ⟨_, h.rows⟩

/-- A step after which the table still holds the outbox, and what cannot be stored still waits. -/
structure Leaves (relay : Relay) (state : GroupServiceState) (store : PocketStore)
    (state' : GroupServiceState) (store' : PocketStore) : Prop where
  tends : Tends state' store'
  builder : state'.builder = state.builder
  waits : ∀ {record}, Waits relay record state store → Waits relay record state' store'

namespace Leaves

/-- A step that does nothing leaves all as it is. -/
theorem refl (h : Tends state store) : Leaves relay state store state store :=
  ⟨h, rfl, id⟩

/-- Two steps one after another leave what each leaves. -/
theorem trans {state₁ : GroupServiceState} {store₁ : PocketStore}
    (h : Leaves relay state store state₁ store₁) (h' : Leaves relay state₁ store₁ state' store') :
    Leaves relay state store state' store' :=
  ⟨h'.tends, h'.builder.trans h.builder, fun hwaits => h'.waits (h.waits hwaits)⟩

/-- Steps that leave the outbox alone and store nothing. -/
theorem of_same (h : Tends state store) (houtbox : state'.outbox = state.outbox)
    (hbuilder : state'.builder = state.builder)
    (hcap : state'.outboxReplayBatchCap = state.outboxReplayBatchCap)
    (hrows : store'.outbox = store.outbox) (hevents : store'.events = store.events) :
    Leaves relay state store state' store' where
  tends := ⟨houtbox ▸ hrows ▸ h.rows, hcap ▸ h.batch⟩
  builder := hbuilder
  waits hwaits :=
    ⟨houtbox ▸ hwaits.held, hwaits.tried, hbuilder ▸ hevents ▸ hwaits.fails⟩

end Leaves

/-- An event that was stored is none of those that cannot be. -/
theorem Relay.NeverStores.append {builder : GroupGeneratedEventBuilder} {events : List StoredEvent}
    {payload : GroupOutboxPayload} {item : StoredEvent}
    (h : relay.NeverStores builder events payload)
    (hstored : relay.db.refuses events item.event = none) :
    relay.NeverStores builder (events ++ [item]) payload := by
  intro event hsign
  obtain ⟨habsent, hrefuses⟩ := h event hsign
  refine ⟨fun other hother heq => ?_, fun later other hlater => ?_⟩
  · rcases List.mem_append.mp hother with hother | hother
    · exact habsent other hother heq
    · cases List.mem_singleton.mp hother
      exact hrefuses events item.event (List.prefix_refl _) heq hstored
  · exact hrefuses later other ((List.prefix_append _ _).trans hlater)

/-! ## Steps that leave the outbox alone -/

/-- The program leaves the outbox table and the events alone. -/
def LeavesOutbox {α : Type} (relay : Relay) (p : BaseM α) : Prop :=
  ∀ rows events, Keeps relay.db.handle
    (fun store => store.outbox = rows ∧ store.events = events) p fun _ => True

/-- A program that leaves the outbox alone ends with it as it was, whether or not it fails. -/
theorem LeavesOutbox.wp {α : Type} {p : BaseM α} (h : LeavesOutbox relay p)
    (hsome : HoldsSome store) : Wp relay.db.handle HoldsSome p store
      (fun _ store' => store'.outbox = store.outbox ∧ store'.events = store.events)
      fun _ store' => store'.outbox = store.outbox ∧ store'.events = store.events := by
  obtain ⟨hstates, _⟩ := h store.outbox store.events store ⟨rfl, rfl⟩
  have hend := hstates _ (Prog.run_mem_states _ _)
  refine Wp.of_states (fun t ht => ?_) ?_
  · obtain ⟨outbox, hrows⟩ := hsome
    exact ⟨outbox, (hstates t ht).1 ▸ hrows⟩
  · cases hresult : (exec relay.db.handle p store).1 with
    | ok a => exact hend
    | error e => exact hend

/-- Writing rows of the projection leaves the outbox and the events alone. -/
theorem leavesOutbox_putProjectionRows (rows : List (Text × ExtraValue)) :
    LeavesOutbox relay (putProjectionRows rows) :=
  fun _ _ => Keeps.forM fun _ _ => keeps_putExtraRecord fun _ hstore => hstore

/-- Writing the whole projection leaves the outbox and the events alone. -/
theorem leavesOutbox_persistSnapshot (projection : GroupProjection) :
    LeavesOutbox relay (persistGroupProjectionSnapshot projection) := by
  intro rows events
  refine Keeps.bind (Keeps.bind (keeps_scanExtraRecords (Q :=
    fun _ => True) fun _ _ => trivial) fun records _ =>
    Keeps.forM fun record _ => keeps_deleteExtraRecord fun _ hstore => hstore)
    fun _ _ => (leavesOutbox_putProjectionRows _ rows events).bind fun _ _ => ?_
  cases projection.checkpoint with
  | none => exact Keeps.throw
  | some checkpoint => exact keeps_putExtraRecord fun _ hstore => hstore

/-- Reading events leaves the outbox and the events alone. -/
theorem leavesOutbox_scan {lastOffset : Option StoreOffset} {limits : GroupLimitsConfig} :
    LeavesOutbox relay (scanCanonicalGroupEventsAfter lastOffset limits) :=
  fun _ _ => (keeps_scanEventsAfter (Q := fun _ => True) fun _ _ _ _ => trivial).bind fun _ _ =>
    Keeps.liftExcept fun _ _ => trivial

/-! ## Replays -/

namespace GroupServiceState

/-- Replacing a record that the outbox may hold by one that is not the one that waits. -/
theorem tends_saveRecord {record : GroupOutboxRecord}
    {X : BaseRelayError → GroupServiceState → PocketStore → Prop}
    (h : Tends state store) :
    WpState relay.db.handle HoldsSome (saveRecord record) state store
      (fun _ state' store' => state' = { state with outbox := state.outbox.update record } ∧
        Tends state' store' ∧ store'.events = store.events) X := by
  have hrows := h.rows.update record
  refine WpState.modify_seq (WpState.liftProg (Wp.perform h.some ⟨_, hrows⟩ (fun _ _ => ?_)
    fun e he => (nomatch he)))
  exact ⟨rfl, ⟨hrows, h.batch⟩, rfl⟩

/-- The records have been made final in the outbox, and others are as they were. -/
structure Finals (records : List GroupOutboxRecord) (outbox outbox' : GroupOutbox) : Prop where
  final : ∀ record ∈ records, ∃ record', outbox'.get record.key = some record' ∧
    record'.isRetryable = false
  others : ∀ key, (∀ record ∈ records, record.key ≠ key) → outbox'.get key = outbox.get key

/-- A replay of records succeeds only when none of them is one that cannot be stored. -/
structure Replays (relay : Relay) (records : List GroupOutboxRecord) (state : GroupServiceState)
    (store : PocketStore) (state' : GroupServiceState) (store' : PocketStore) : Prop where
  leaves : Leaves relay state store state' store'
  finals : Finals records state.outbox state'.outbox
  none : ∀ record ∈ records, ¬Waits relay record state store

section
variable (hdb : relay.db.Faithful)
include hdb

/-- A generated event is stored, unless it cannot be. -/
theorem tends_storeGeneratedEvent {record : GroupOutboxRecord} (h : Tends state store) :
    WpState relay.db.handle HoldsSome (storeGeneratedEvent relay.pocket record) state store
      (fun _ state' store' => Leaves relay state store state' store' ∧
        state'.outbox = state.outbox ∧
        ¬relay.NeverStores state.builder store.events record.payload)
      fun _ state' store' => Leaves relay state store state' store' ∧
        state'.outbox = state.outbox := by
  have hstay : Leaves relay state store state store := .refl h
  refine WpState.get_seq ?_
  refine WpState.check_seq h.some (fun generated hgenerated => ?_) fun _ _ => ⟨hstay, rfl⟩
  have hsign := Except.mapError_eq_ok.mp hgenerated
  refine WpState.check_seq h.some (fun eventId heventId => ?_) fun _ _ => ⟨hstay, rfl⟩
  obtain rfl : eventId = generated.id := by
    have hnew : Hex64.new _ generated.id.text = .ok eventId := Except.mapError_eq_ok.mp heventId
    exact Except.ok.inj (hnew.symm.trans (Hex64.new_text generated.id))
  refine WpState.liftProg_seq (@wp_generatedEventAlreadyStored _ _ _ _ (fun _ _ => False) h.some)
    (fun present store' _ ⟨hstore, hpresent, _⟩ => ?_) fun _ _ _ hX => hX.elim
  subst hstore
  split
  · next hyes =>
    refine WpState.pure h.some ⟨hstay, rfl, fun hnever => ?_⟩
    obtain ⟨item, hitem, hid⟩ := hpresent hyes hdb
    exact (hnever generated hsign).1 item hitem hid
  · refine WpState.liftProg_seq (wp_storeEvent h.some fun _ => h.some)
      (fun offset stored _ ⟨hrefuses, hoffset, hstored⟩ => ?_) fun _ refused _ ⟨_, hrefused⟩ => ?_
    · subst hoffset hstored
      have hone : Leaves relay state store' state { store' with
          events := store'.events ++ [⟨generated, relay.db.nextOffset store'.events⟩] } :=
        ⟨⟨h.rows, h.batch⟩, rfl, fun hwaits => ⟨hwaits.held, hwaits.tried,
          hwaits.fails.append hrefuses⟩⟩
      refine WpState.check_seq h.some (fun result hresult => ?_) fun _ _ => ⟨hone, rfl⟩
      refine WpState.set_seq (WpState.liftProg_seq
        ((leavesOutbox_putProjectionRows _).wp (hone.tends.some))
        (fun _ persisted hsome ⟨hrows, hevents⟩ => ?_) fun _ persisted _ ⟨hrows, hevents⟩ => ?_)
      · refine WpState.pure hsome ⟨hone.trans (.of_same hone.tends rfl rfl rfl hrows hevents), rfl,
          fun hnever => ?_⟩
        exact (hnever generated hsign).2 _ _ (List.prefix_refl _) rfl hrefuses
      · exact ⟨hone.trans (.of_same hone.tends rfl rfl rfl hrows hevents), rfl⟩
    · subst hrefused
      exact ⟨hstay, rfl⟩

/-- A record is made final, or kept as one to try again. -/
theorem tends_materializeRecord {record : GroupOutboxRecord} (h : Tends state store)
    (hget : state.outbox.get record.key = some record) :
    WpState relay.db.handle HoldsSome (materializeRecord relay.pocket record) state store
      (fun _ state' store' => Replays relay [record] state store state' store')
      fun _ state' store' => Tends state' store' := by
  -- saving a final record in the place of this one
  have hsaved : ∀ {state₁ store₁ state' store'} {final : GroupOutboxRecord},
      state' = { state₁ with outbox := state₁.outbox.update final } ∧ Tends state' store' ∧
        store'.events = store₁.events →
      Leaves relay state store state₁ store₁ → state₁.outbox = state.outbox →
      final.key = record.key → final.isRetryable = false →
      ¬Waits relay record state store →
      Replays relay [record] state store state' store' := by
    intro state₁ store₁ state' store' final ⟨hstate, htends,
      hevents⟩ hleaves houtbox hkey hfinal hnot
    subst hstate
    have hother : ∀ key, record.key ≠ key →
        (state₁.outbox.update final).get key = state.outbox.get key := by
      intro key hne
      rw [GroupOutbox.get_update, houtbox]
      exact if_neg (hkey ▸ hne)
    refine ⟨⟨htends, hleaves.builder, fun {other} hwaits => ?_⟩,
      ⟨fun r hr => ?_, fun key hne => ?_⟩,
      fun r hr => List.mem_singleton.mp hr ▸ hnot⟩
    · have hne : record.key ≠ other.key := by
        intro heq
        cases hget.symm.trans (heq ▸ hwaits.held)
        exact hnot hwaits
      have hleft := hleaves.waits hwaits
      exact ⟨(hother _ hne).trans hwaits.held, hwaits.tried, hevents ▸ hleft.fails⟩
    · cases List.mem_singleton.mp hr
      exact ⟨final, by rw [GroupOutbox.get_update, if_pos hkey], hfinal⟩
    · exact hother key (hne record (.head _))
  unfold materializeRecord
  split
  · next hunsupported =>
    refine WpState.seq (tends_saveRecord (X := fun _ => Tends) h)
      (fun _ state' store' hsome hsave => ?_) fun _ _ _ _ hX => hX
    exact WpState.pure hsome (hsaved hsave (.refl h) rfl rfl rfl fun hwaits =>
      hwaits.tried.2 hunsupported)
  · refine WpState.attempt_seq (tends_storeGeneratedEvent hdb h)
      (fun result state₁ store₁ _ ⟨hleaves, houtbox, hnot⟩ => ?_)
      fun error state₁ store₁ _ ⟨hleaves, houtbox⟩ => ?_
    · refine WpState.seq (tends_saveRecord (X := fun _ => Tends) hleaves.tends)
        (fun _ state' store' hsome hsave => ?_) fun _ _ _ _ hX => hX
      exact WpState.pure hsome (hsaved hsave hleaves houtbox rfl rfl fun hwaits =>
        hnot hwaits.fails)
    · refine WpState.seq (tends_saveRecord (X := fun _ => Tends) hleaves.tends)
        (fun _ state' store' hsome ⟨_, htends, _⟩ => ?_) fun _ _ _ _ hX => hX
      exact WpState.throw hsome htends

/-- **A replay of a list that does not fail has met no record that waits**: such a record's event
cannot be stored, so trying it ends the replay. By induction on the list. -/
theorem tends_materializeRecords {records : List GroupOutboxRecord} (h : Tends state store)
    (hget : ∀ record ∈ records, state.outbox.get record.key = some record)
    (hnodup : (records.map GroupOutboxRecord.key).Nodup) :
    WpState relay.db.handle HoldsSome (materializeRecords relay.pocket records) state store
      (fun _ state' store' => Replays relay records state store state' store')
      fun _ state' store' => Tends state' store' := by
  induction records generalizing state store with
  | nil =>
    exact WpState.pure h.some ⟨.refl h, ⟨fun _ h => (nomatch h), fun _ _ => rfl⟩,
      fun _ h => (nomatch h)⟩
  | cons record rest ih =>
    obtain ⟨hnot, hnodup⟩ := List.nodup_cons.mp hnodup
    have hne : ∀ r ∈ rest, r.key ≠ record.key :=
      fun r hr heq => hnot (heq ▸ List.mem_map_of_mem hr)
    refine WpState.seq (tends_materializeRecord hdb h (hget record (List.mem_cons_self ..)))
      (fun offset state₁ store₁ _ hfirst => ?_) fun _ _ _ _ hX => hX
    have hget₁ : ∀ r ∈ rest, state₁.outbox.get r.key = some r := fun r hr => by
      rw [hfirst.finals.others r.key fun other hother =>
        List.mem_singleton.mp hother ▸ Ne.symm (hne r hr)]
      exact hget r (List.mem_cons_of_mem _ hr)
    refine WpState.seq (ih hfirst.leaves.tends hget₁ hnodup)
      (fun offsets state₂ store₂ hsome hrest => ?_) fun _ _ _ _ hX => hX
    refine WpState.pure hsome ⟨hfirst.leaves.trans hrest.leaves,
      ⟨fun r hr => ?_, fun key hkey => ?_⟩,
      fun r hr hwaits => ?_⟩
    · rcases List.mem_cons.mp hr with rfl | hr
      · rw [hrest.finals.others r.key hne]
        exact hfirst.finals.final r (.head _)
      · exact hrest.finals.final r hr
    · rw [hrest.finals.others key fun r hr => hkey r (List.mem_cons_of_mem _ hr)]
      exact hfirst.finals.others key fun r hr =>
        List.mem_singleton.mp hr ▸ hkey record (List.mem_cons_self ..)
    · rcases List.mem_cons.mp hr with rfl | hr
      · exact hfirst.none r (.head _) hwaits
      · exact hrest.none r hr (hfirst.leaves.waits hwaits)

/-- A replay that succeeds has found no record that cannot be stored. -/
theorem tends_materializeLoop {keep : GroupOutboxRecord → Bool} (h : Tends state store)
    {steps : Nat}
    (hsteps : (state.outbox.replayPlanMatching keep).length < steps) :
    WpState relay.db.handle HoldsSome
      (materializeLoop relay.pocket (fun outbox => outbox.replayPlanMatching keep) steps)
        state store
      (fun _ state' store' => Tends state' store' ∧
        ∀ record, keep record = true → ¬Waits relay record state store)
      fun _ state' store' => Tends state' store' := by
  induction steps generalizing state store with
  | zero => exact absurd hsteps (Nat.not_lt_zero _)
  | succ steps ih =>
    refine WpState.get_seq ?_
    dsimp only
    have hkeyed := h.rows.keyed
    have hplanned : ∀ record, keep record = true → Waits relay record state store →
        record ∈ state.outbox.replayPlanMatching keep :=
      fun record hkeep hwaits => (mem_plan_iff hkeyed).mpr ⟨hwaits.held, hwaits.tried.1, hkeep⟩
    generalize hplan : state.outbox.replayPlanMatching keep = plan at hsteps hplanned ⊢
    generalize hbatch : plan.take state.outboxReplayBatchCap.toNat = batch
    have hsub : ∀ r ∈ batch, r ∈ plan := fun r hr => List.mem_of_mem_take (hbatch ▸ hr)
    split
    · next hempty =>
      refine WpState.pure h.some ⟨h, fun record hkeep hwaits => ?_⟩
      rw [List.isEmpty_iff, ← hbatch, List.take_eq_nil_iff] at hempty
      have hnil := hempty.resolve_left (Nat.ne_of_gt h.batch)
      exact List.not_mem_nil (hnil ▸ hplanned record hkeep hwaits)
    · next hnonempty =>
      have hget : ∀ r ∈ batch, state.outbox.get r.key = some r :=
        fun r hr => ((mem_plan_iff hkeyed).mp (hplan ▸ hsub r hr)).1
      have hnodup : (batch.map GroupOutboxRecord.key).Nodup :=
        (hplan ▸ nodup_plan hkeyed : (plan.map GroupOutboxRecord.key).Nodup).sublist
          (hbatch ▸ (List.take_sublist _ _).map _)
      refine WpState.seq (tends_materializeRecords hdb h hget hnodup)
        (fun offsets state₁ store₁ _ hreplays => ?_) fun _ _ _ _ hX => hX
      have hkeyed₁ := hreplays.leaves.tends.rows.keyed
      have hreplan : ∀ r, r ∈ state₁.outbox.replayPlanMatching keep ↔
          r ∈ plan ∧ ∀ other ∈ batch, other.key ≠ r.key :=
        fun r => hplan ▸ mem_replan_iff hreplays.finals.final hreplays.finals.others hkeyed hkeyed₁
      have hshorter : (state₁.outbox.replayPlanMatching keep).length < steps := by
        have hsome : plan ≠ [] := fun hnil => hnonempty (by rw [← hbatch, hnil, List.take_nil]; rfl)
        have hlt := length_replan_lt hkeyed₁ (hbatch ▸ hreplan) h.batch hsome
        omega
      refine WpState.seq (ih hreplays.leaves.tends hshorter)
        (fun more state₂ store₂ hsome ⟨htends, hnone⟩ => ?_) fun _ _ _ _ hX => hX
      exact WpState.pure hsome ⟨htends, fun record hkeep hwaits =>
        hnone record hkeep (hreplays.leaves.waits hwaits)⟩

/-- The same of a replay of one of the outbox's plans: when it succeeds, no record of the plan was
waiting. -/
theorem tends_materializeWith {keep : GroupOutboxRecord → Bool} (h : Tends state store) :
    WpState relay.db.handle HoldsSome
      (materializeWith relay.pocket fun outbox => outbox.replayPlanMatching keep) state store
      (fun _ state' store' => Tends state' store' ∧
        ∀ record, keep record = true → ¬Waits relay record state store)
      fun _ state' store' => Tends state' store' :=
  WpState.get_seq (tends_materializeLoop hdb h (Nat.lt_succ_self _))

end

/-! ## Writes -/

/-- Merging a record leaves the others as they are. -/
theorem tends_mergeRecord {record : GroupOutboxRecord} (h : Tends state store) :
    WpState relay.db.handle HoldsSome (mergeRecord record) state store
      (fun _ state' store' => Leaves relay state store state' store')
      fun _ state' store' => Tends state' store' := by
  refine WpState.get_seq ?_
  refine WpState.check_seq h.some (fun merged hmerge => ?_) fun _ _ => h
  obtain ⟨inserted, outbox⟩ := merged
  rcases GroupOutbox.mergeIdempotent_cases (Except.mapError_eq_ok.mp hmerge) with
    ⟨rfl, rfl, _⟩ | ⟨rfl, rfl, hget⟩
  · exact WpState.set_seq (WpState.pure h.some (.refl h))
  · have hrows := h.rows.update record
    refine WpState.set_seq (WpState.liftProg (Wp.perform h.some ⟨_, hrows⟩ (fun _ _ => ?_)
      fun e he => (nomatch he)))
    refine ⟨⟨hrows, h.batch⟩, rfl, fun {other} hwaits => ⟨?_, hwaits.tried, hwaits.fails⟩⟩
    have hne : record.key ≠ other.key := by
      intro heq
      rw [heq, hwaits.held] at hget
      cases hget
    change (state.outbox.update record).get other.key = some other
    rw [GroupOutbox.get_update, if_neg hne]
    exact hwaits.held

/-- Merging records leaves what waits where it was. -/
theorem tends_mergeRecords {records : List GroupOutboxRecord} (h : Tends state store) :
    WpState relay.db.handle HoldsSome (mergeRecords records) state store
      (fun _ state' store' => Leaves relay state store state' store')
      fun _ state' store' => Tends state' store' :=
  WpState.forM h.some (.refl h) fun _ _ _ _ _ hleaves =>
    (tends_mergeRecord hleaves.tends).mono (fun _ _ _ _ hmore => hleaves.trans hmore)
      fun _ _ _ _ hX => hX

section
variable (hdb : relay.db.Faithful) {event : PocketEvent} {eventClass : GroupEventClass}
  {groupId : GroupId}
include hdb

/-- What follows the storing of an event succeeds only when no record of its group waits. -/
theorem tends_afterSourceEventStored (hgroup : eventClass.groupId = some groupId)
    {offset : StoreOffset} (h : Tends state store) :
    WpState relay.db.handle HoldsSome
      (afterSourceEventStored relay.pocket event eventClass offset) state store
      (fun _ state' store' => Tends state' store' ∧
        ∀ record, record.key.groupId = groupId → ¬Waits relay record state store)
      fun _ state' store' => Tends state' store' := by
  refine WpState.get_seq ?_
  refine WpState.check_seq h.some (fun before _ => ?_) fun _ _ => h
  refine WpState.check_seq h.some (fun result _ => ?_) fun _ _ => h
  obtain ⟨outcome, projection⟩ := result
  have hpersist : persistClassProjection projection eventClass =
      persistGroupProjection projection groupId := by
    cases eventClass with
    | nonGroup => cases hgroup
    | _ => cases hgroup; rfl
  have hmaterialize : materializeClass relay.pocket eventClass =
      materializeWith relay.pocket fun outbox =>
        outbox.replayPlanMatching fun record => record.key.groupId == groupId := by
    cases eventClass with
    | nonGroup => cases hgroup
    | _ => cases hgroup; rfl
  dsimp only
  rw [hpersist]
  refine WpState.set_seq (WpState.liftProg_seq ((leavesOutbox_putProjectionRows _).wp h.some)
    (fun _ persisted hsome ⟨hrows, hevents⟩ => ?_) fun _ persisted _ ⟨hrows, hevents⟩ => ?_)
  · have hfirst : Leaves relay state store { state with projection := projection } persisted :=
      .of_same h rfl rfl rfl hrows hevents
    unfold generateRecords
    rw [hmaterialize]
    refine WpState.get_seq (WpState.check_seq hsome (fun records _ => ?_)
      fun _ _ => hfirst.tends)
    refine WpState.seq (tends_mergeRecords hfirst.tends) (fun _ merged mergedStore _ hmerged => ?_)
      fun _ _ _ _ hX => hX
    refine (tends_materializeWith hdb hmerged.tends).mono
      (fun _ state' store' _ ⟨htends, hnone⟩ => ⟨htends, fun record hsame hwaits => ?_⟩)
      fun _ _ _ _ hX => hX
    exact hnone record (beq_iff_eq.mpr hsame) (hmerged.waits (hfirst.waits hwaits))
  · exact ⟨hrows ▸ h.rows, h.batch⟩

/-- A write that is stored has found no record of its group that cannot be stored. -/
theorem tends_storeGroupPocketEvent {auth : GroupAuthContext}
    (hgroup : eventClass.groupId = some groupId) (h : Tends state store) :
    WpState relay.db.handle HoldsSome (storeGroupPocketEvent relay.pocket event eventClass auth)
      state store
      (fun write state' store' => Tends state' store' ∧ ∀ offsets, write = .stored offsets →
        ∀ record, record.key.groupId = groupId → ¬Waits relay record state store)
      fun _ state' store' => Tends state' store' := by
  refine WpState.get_seq (WpState.liftProg_seq (Y := fun _ store' => store' = store)
    (Wp.adapt ((wp_checkEvent (C := HoldsSome) h.some).mono (fun _ _ _ h => h) fun _ _ _ h => h))
    (fun _ checked _ ⟨hchecked, _⟩ => ?_) fun _ _ _ hX => hX ▸ h)
  subst hchecked
  refine WpState.liftProg_seq (Wp.perform (Q := fun _ found => found = checked)
    (X := fun _ _ => False) h.some h.some (fun _ _ => rfl) fun e he => (nomatch he))
    (fun present found _ hfound => ?_) fun _ _ _ hX => hX.elim
  subst hfound
  split
  · exact WpState.pure h.some ⟨h, fun _ hstored => (nomatch hstored)⟩
  · refine WpState.liftProg_seq (wp_storeEvent h.some fun _ => h.some)
      (fun offset stored _ ⟨hrefuses, hoffset, hstored⟩ => ?_) fun _ _ _ ⟨_, hX⟩ => hX ▸ h
    subst hoffset hstored
    have htended : Tends state { found with
        events := found.events ++ [⟨event, relay.db.nextOffset found.events⟩] } := ⟨h.rows, h.batch⟩
    refine WpState.seq (WpState.adapt (tends_afterSourceEventStored hdb hgroup htended))
      (fun offsets state' store' hsome ⟨htends, hnone⟩ => ?_) fun _ _ _ _ hX => hX
    refine WpState.pure hsome ⟨htends, fun _ _ record hsame hwaits => hnone record hsame ?_⟩
    exact ⟨hwaits.held, hwaits.tried, hwaits.fails.append hrefuses⟩

/-! ## Starts -/

end

/-- Deriving the records of an event leaves what waits where it was. -/
theorem tends_deriveRecordsOf {projection : GroupProjection} {item : StoredEvent}
    (h : Tends state store) :
    WpState relay.db.handle HoldsSome (deriveRecordsOf relay.pocket projection item) state store
      (fun _ state' store' => Leaves relay state store state' store')
      fun _ state' store' => Tends state' store' := by
  refine WpState.get_seq ?_
  refine WpState.check_seq h.some (fun eventClass _ => ?_) fun _ _ => h
  refine WpState.check_seq h.some (fun before _ => ?_) fun _ _ => h
  refine WpState.check_seq h.some (fun result _ => ?_) fun _ _ => h
  dsimp only
  split
  · exact WpState.pure h.some (.refl h)
  · refine WpState.check_seq h.some (fun records _ => ?_) fun _ _ => h
    exact WpState.seq (tends_mergeRecords h) (fun _ _ _ hsome hleaves => WpState.pure hsome hleaves)
      fun _ _ _ _ hX => hX

/-- A start that ends has found no record that cannot be stored. -/
theorem tends_finishStart (hdb : relay.db.Faithful) (h : Tends state store) :
    WpState relay.db.handle HoldsSome (finishStart relay.pocket) state store
      (fun _ state' store' => Tends state' store' ∧ ∀ record, ¬Waits relay record state store)
      fun _ state' store' => Tends state' store' := by
  have hderive : WpState relay.db.handle HoldsSome (deriveMissingOutboxRecords relay.pocket) state
      store (fun _ state' store' => Leaves relay state store state' store')
      fun _ state' store' => Tends state' store' := by
    refine WpState.get_seq (WpState.liftProg_seq (leavesOutbox_scan.wp h.some)
      (fun scan scanned hsome ⟨hrows, hevents⟩ => ?_) fun _ _ _ ⟨hrows, _⟩ =>
        ⟨hrows ▸ h.rows, h.batch⟩)
    have hsame : Leaves relay state store state scanned := .of_same h rfl rfl rfl hrows hevents
    refine WpState.seq (WpState.foldlM (P := fun _ => Leaves relay state store) hsome hsame
      fun _ _ _ _ _ _ hleaves => (tends_deriveRecordsOf hleaves.tends).mono
        (fun _ _ _ _ hmore => hleaves.trans hmore) fun _ _ _ _ hX => hX)
      (fun _ _ _ hsome hleaves => WpState.pure hsome hleaves) fun _ _ _ _ hX => hX
  refine WpState.seq hderive (fun _ state₁ store₁ _ hleaves => ?_) fun _ _ _ _ hX => hX
  refine WpState.seq (@tends_materializeWith relay _ _ hdb (fun _ => true) hleaves.tends)
    (fun _ state₂ store₂ hsome ⟨htends, hnone⟩ => ?_) fun _ _ _ _ hX => hX
  exact WpState.pure hsome ⟨htends, fun record hwaits => hnone record rfl (hleaves.waits hwaits)⟩

end GroupServiceState

/-- Loading reads the outbox and leaves its table as it is. -/
theorem leavesOutbox_loadGroupStorage {limits : GroupLimitsConfig} {now : UnixTimestamp}
    {rows : BTreeMap Text ExtraValue} {events : List StoredEvent} :
    Keeps relay.db.handle (fun store => store.outbox = rows ∧ store.events = events)
      (loadGroupStorage limits now)
      fun storage => loadGroupOutbox rows.toList = .ok storage.outbox := by
  refine Keeps.bind (Keeps.bind (keeps_getExtraRecord _ _) fun _ _ =>
    Keeps.liftExcept fun _ _ => trivial)
    fun status _ => ?_
  refine Keeps.bind (keeps_scanExtraRecords (Q := fun records => records = rows.toList) fun _ h =>
    congrArg _ h.1) fun outboxRecords houtbox => ?_
  subst houtbox
  have hread : ∀ projection : GroupProjection, Keeps relay.db.handle
      (fun store => store.outbox = rows ∧ store.events = events)
      (do return ⟨projection, ← liftM (loadGroupOutbox rows.toList)⟩ : BaseM GroupStorageState)
      fun storage => loadGroupOutbox rows.toList = .ok storage.outbox :=
    fun projection => Keeps.bind (Keeps.liftExcept fun outbox hload => hload)
      fun outbox hload => Keeps.pure hload
  split
  · refine Keeps.bind (leavesOutbox_scan rows events) fun scan _ => ?_
    refine Keeps.bind (Keeps.liftExcept fun _ _ => trivial) fun report _ => ?_
    exact Keeps.bind (leavesOutbox_persistSnapshot _ rows events) fun _ _ =>
      keeps_validateRebuiltGroupProjection.bind fun _ _ => hread _
  · refine Keeps.bind (keeps_scanExtraRecords (Q := fun _ => True) fun _ _ => trivial)
      fun records _ => ?_
    refine Keeps.bind (Keeps.liftExcept fun _ _ => trivial) fun projection _ => ?_
    refine Keeps.bind (Q := fun _ => True) ?_ fun final _ => hread final
    refine Keeps.bind (leavesOutbox_scan rows events) fun scan _ => ?_
    split
    · exact Keeps.pure trivial
    · refine Keeps.bind (Keeps.liftExcept fun _ _ => trivial) fun applied _ => ?_
      exact Keeps.bind (leavesOutbox_persistSnapshot _ rows events) fun _ _ =>
        keeps_validateRebuiltGroupProjection.bind fun _ _ => Keeps.pure trivial

/-- A start that ends serves the outbox it found, in which no record is one that cannot be
stored. -/
theorem tends_start (hdb : relay.db.Faithful) {outbox : GroupOutbox} {config : GroupRuntimeConfig}
    {now : UnixTimestamp} (hrows : HoldsRecords outbox store.outbox) :
    Wp relay.db.handle HoldsSome (relay.start config now) store
      (fun groups store' => (∀ state, groups = some state → Tends state store') ∧
        (config.enabled = true → ∀ signer,
          GroupServiceState.configuredSigner relay.pocket config = .ok signer → ∀ record,
            outbox.get record.key = some record → record.IsTried →
            ¬relay.NeverStores ⟨signer⟩ store.events record.payload))
      fun _ _ => True := by
  have hsome : HoldsSome store := ⟨outbox, hrows⟩
  unfold Relay.start GroupServiceState.fromConfig
  split
  · next hdisabled =>
    refine Wp.pure hsome ⟨fun _ h => (nomatch h), fun henabled => ?_⟩
    rw [henabled] at hdisabled
    cases hdisabled
  refine Wp.check_seq hsome (fun signer hsigner => ?_) fun _ _ => trivial
  have hload : Wp relay.db.handle HoldsSome (loadGroupStorage config.limits now) store
      (fun storage loaded => storage.outbox = outbox ∧ loaded.outbox = store.outbox ∧
        loaded.events = store.events) fun _ _ => True := by
    obtain ⟨hstates, hread⟩ := @leavesOutbox_loadGroupStorage relay config.limits now _ _ store
      ⟨rfl, rfl⟩
    have hend := hstates _ (Prog.run_mem_states _ _)
    refine Wp.of_states (fun t ht => ⟨outbox, (hstates t ht).1 ▸ hrows⟩) ?_
    cases hresult : (exec relay.db.handle (loadGroupStorage config.limits now) store).1 with
    | ok storage => exact ⟨load_of_holdsRecords hrows (hread storage hresult), hend⟩
    | error e => trivial
  refine Wp.seq hload (fun storage loaded _ ⟨houtbox, hrows', hevents⟩ => ?_) fun _ _ _ _ => trivial
  subst houtbox
  have htends : Tends (GroupServiceState.ofStorage config signer storage) loaded :=
    ⟨hrows' ▸ hrows, config.maxOutboxReplayBatch_pos⟩
  refine Wp.seq (GroupServiceState.wp_runFrom (GroupServiceState.tends_finishStart hdb htends))
    (fun state store' hsome' ⟨htends', hnone⟩ => ?_) fun _ _ _ _ => trivial
  refine Wp.pure hsome' ⟨fun _ h => Option.some.inj h ▸ htends', fun _ other hother record hget
    htried hnever => ?_⟩
  cases hsigner.symm.trans hother
  exact hnone record ⟨hget, htried, hevents ▸ hnever⟩

/-! ## Runs -/

/-- A submission leaves the table with the records of the outbox, whatever becomes of the event. -/
theorem tends_submit (hdb : relay.db.Faithful) {event : PocketEvent} {auth : GroupAuthContext}
    (h : Tends state store) :
    WpState relay.db.handle HoldsSome (relay.submit event auth) (some state) store
      (fun _ groups store' => ∃ state', groups = some state' ∧ Tends state' store')
      fun _ groups store' => ∃ state', groups = some state' ∧ Tends state' store' := by
  have hstay : ∃ state', some state = some state' ∧ Tends state' store := ⟨state, rfl, h⟩
  unfold Relay.submit handlePocketEvent
  split
  · exact WpState.pure h.some hstay
  refine WpState.get_seq ?_
  split
  · exact WpState.pure h.some hstay
  · refine WpState.liftProg ((wp_storePlainEvent h.some fun _ _ => h.some).mono
      (fun _ store' _ hdone => ⟨state, rfl, ?_⟩) fun _ store' _ hstore => hstore ▸ hstay)
    rcases hdone with hstore | ⟨_, _, hstore⟩
    · exact hstore ▸ h
    · exact hstore ▸ ⟨h.rows, h.batch⟩
  · next eventClass hnonGroup _ =>
    obtain ⟨groupId, hgroup⟩ : ∃ groupId, eventClass.groupId = some groupId := by
      cases eventClass with
      | nonGroup => exact absurd rfl hnonGroup
      | _ => exact ⟨_, rfl⟩
    refine WpState.get_seq ?_
    refine WpState.seq (wp_withGroups (Y := fun _ _ _ => False)
      (GroupServiceState.tends_storeGroupPocketEvent hdb hgroup h))
      (fun result groups store' hsome ⟨state', hgroups, hend⟩ => ?_) fun _ _ _ _ hX => hX.elim
    subst hgroups
    cases result with
    | ok write =>
      cases write with
      | stored offsets => exact WpState.pure hsome ⟨state', rfl, hend.1⟩
      | duplicate => exact WpState.pure hsome ⟨state', rfl, hend.1⟩
    | error failure =>
      cases failure with
      | rejected error => exact WpState.pure hsome ⟨state', rfl, hend⟩
      | storage error => exact WpState.throw hsome ⟨state', rfl, hend⟩

/-- The outbox table holds an outbox, that of the service when there is one. -/
def World.Tended : World → Prop
  | .up (some state) store => Tends state store
  | .up none store | .down store => HoldsSome store

/-- **Wherever a relay has got to**, its outbox table is that of its outbox. -/
theorem Relay.Reaches.tended (hdb : relay.db.Faithful) {allowed : World → Happening → Prop}
    {w : World} (hw : relay.Reaches allowed w) : w.Tended := by
  have hsome : ∀ {w : World}, w.Tended → HoldsSome w.store := by
    intro w h
    rcases w with ⟨_ | state, store⟩ | store
    · exact h
    · exact Tends.some h
    · exact h
  refine hw.invariant ⟨.new, .empty⟩ fun {w happening w'} h _ hstep => ?_
  cases hstep with
  | @started config now store store' groups hrun =>
    obtain ⟨outbox, hrows⟩ : HoldsSome store := h
    obtain ⟨hsome', hup, _⟩ := (tends_start hdb hrows).forget.exec hrun
    cases groups with
    | none => exact hsome'
    | some state => exact hup state rfl
  | startStopped hmem =>
    obtain ⟨outbox, hrows⟩ : HoldsSome _ := h
    exact (tends_start hdb hrows).1 _ hmem
  | @submitted event auth groups store result groups' store' hfits hrun =>
    cases groups with
    | none =>
      have hend := (wp_submit_off (C := HoldsSome) h fun _ _ _ => h).exec hrun
      cases result with
      | ok write => exact hend.1 ▸ hend.2
      | error error => exact hend.1 ▸ hend.2
    | some state =>
      have hend := (tends_submit hdb h).exec hrun
      cases result with
      | ok write =>
        obtain ⟨state', rfl, htends⟩ := hend
        exact htends
      | error error =>
        obtain ⟨state', rfl, htends⟩ := hend
        exact htends
  | @submitStopped event auth groups store store' hfits hmem =>
    cases groups with
    | none => exact (wp_submit_off (C := HoldsSome) h fun _ _ _ => h).1 _ hmem
    | some state => exact (tends_submit hdb h).1 _ hmem
  | stopped => exact hsome h

/-- **A record whose event cannot be stored wedges the relay.** In every state that a relay has got
to, while such a record waits in the outbox, no write of its group is reported as stored, and no
start with the relay's key succeeds. -/
theorem failingRecord_wedges (hdb : relay.db.Faithful)
    (hreach : relay.Reachable (.up (some state) store)) (hwaits : Waits relay record state store) :
    (∀ event eventClass auth offsets state' store',
      eventClass.groupId = some record.key.groupId →
      execState relay.db.handle
        (GroupServiceState.storeGroupPocketEvent relay.pocket event eventClass
        auth) state store ≠ (.ok (.stored offsets), state', store')) ∧
    ∀ config now groups store', config.enabled = true →
      GroupServiceState.configuredSigner relay.pocket config = .ok state.builder.signer →
      exec relay.db.handle (GroupServiceState.fromConfig relay.pocket config now) store ≠
        (.ok groups, store') := by
  have htends : Tends state store := Relay.Reaches.tended hdb hreach
  refine ⟨fun event eventClass auth offsets state' store' hgroup hrun => ?_,
    fun config now groups store' henabled hsigner hrun => ?_⟩
  · have hend := (GroupServiceState.tends_storeGroupPocketEvent hdb hgroup htends).exec hrun
    exact hend.2 offsets rfl record rfl hwaits
  · have hend := (tends_start hdb htends.rows).exec hrun
    exact hend.2 henabled _ hsigner record hwaits.held hwaits.tried hwaits.fails

end

/-! ## A group that takes no writes any more -/

namespace Sample

/-- The id of the admins snapshot of a group made at time 10. -/
def adminsId : EventId :=
  eventId 39001 10 [["d".toList, "farm".toList], ["p".toList, owner.text]]

/-- A database that holds the admins snapshot to be deleted, and takes it never again. -/
def stubbornDb : PocketDb :=
  { plainDb with refuses := fun _ event => if event.id = adminsId then some "deleted" else none }

/-- The sample relay over that database. -/
def stubborn : Relay :=
  { relay with db := stubbornDb }

/-- The group is made, which fails once its admins are to be stored. -/
def farmStuck : List ScriptLine :=
  [.start config 100, .submit (farmEvent owner 9007 10 []) (authAs owner)]

/-- The database finds what it holds and takes any other event again. -/
theorem stubbornDb_faithful : stubbornDb.Faithful where
  found h := plainDb_faithful.found h
  told h hnone := absurd (plainDb_faithful.told h hnone) (by simp [plainDb])

/-- The key of the record of the admins snapshot. -/
def adminsKey : GroupOutboxKey :=
  ⟨(farmEvent owner 9007 10 []).id, .adminListSnapshot, farm, none⟩

/-- The owner edits the metadata of the group. -/
def editLater : PocketEvent :=
  farmEvent owner 9002 20 [["name", "farm"]]

/-- Whether the record of the admins snapshot is to be tried again, with an event of the refused id
that is not stored. -/
def isStuck (state : GroupServiceState) (store : PocketStore) : Bool :=
  (state.outbox.get adminsKey).any fun record =>
    record.key = adminsKey && record.isRetryable &&
      ((state.builder.signPayloadPocket pocket record.payload).toOption.all fun event =>
        event.id = adminsId) &&
      store.events.all fun item => item.event.id != adminsId

/-- What the computation calls stuck is a record that waits. -/
theorem waits_of_isStuck {state : GroupServiceState} {store : PocketStore}
    (h : isStuck state store = true) : ∃ record, Waits stubborn record state store := by
  unfold isStuck at h
  cases hget : state.outbox.get adminsKey with
  | none =>
    rw [hget] at h
    cases h
  | some record =>
    rw [hget, Option.any_some] at h
    simp only [Bool.and_eq_true, decide_eq_true_eq] at h
    obtain ⟨⟨⟨hkey, hretry⟩, hsigns⟩, habsent⟩ := h
    refine ⟨record, hkey ▸ hget, ⟨hretry, by rw [hkey]; decide⟩, fun event hsign => ?_⟩
    have hsign : state.builder.signPayloadPocket pocket record.payload = .ok event := hsign
    have hid : event.id = adminsId := by
      rw [hsign] at hsigns
      exact of_decide_eq_true hsigns
    refine ⟨fun item hitem heq => ?_, fun later other _ hother => ?_⟩
    · exact bne_iff_ne.mp (List.all_eq_true.mp habsent item hitem) (heq.trans hid)
    · change (if other.id = adminsId then some "deleted" else none) ≠ none
      rw [if_pos (hother.trans hid)]
      exact Option.some_ne_none _

/-- Whether the relay's key is the service's. -/
def isSigner (state : GroupServiceState) : Bool :=
  (GroupServiceState.configuredSigner pocket config).toOption.any fun signer =>
    signer.secret = state.builder.signer.secret && signer.publicKey = state.builder.signer.publicKey

/-- A key that the computation finds is the one configured. -/
theorem signer_of_isSigner {state : GroupServiceState} (h : isSigner state = true) :
    GroupServiceState.configuredSigner pocket config = .ok state.builder.signer := by
  unfold isSigner at h
  cases hsigner : GroupServiceState.configuredSigner pocket config with
  | error e =>
    rw [hsigner] at h
    cases h
  | ok signer =>
    rw [hsigner] at h
    simp only [Except.toOption, Option.any_some, Bool.and_eq_true, decide_eq_true_eq] at h
    obtain ⟨hsecret, hkey⟩ := h
    have hsame : signer = state.builder.signer := by
      cases hb : state.builder.signer
      cases signer
      simp_all
    rw [hsame]

/-- Whether the edit passes the gate and the policy and is not stored. -/
def losesEdit (state : GroupServiceState) (store : PocketStore) : Bool :=
  (validateClientGroupEventStructure editLater state.limits).toOption.any fun eventClass =>
    (exec stubborn.db.handle (state.checkEvent editLater eventClass (authAs owner)) store).1.isOk &&
      !(execState stubborn.db.handle (GroupServiceState.storeGroupPocketEvent stubborn.pocket
        editLater eventClass (authAs owner)) state store).1.isOk

end Sample

section
open Sample

/-- The theorem at a relay whose database refuses the admins snapshot of a new group: its record
waits, and the relay does not start again on the store, whenever it tries. -/
theorem failingRecord_wedges_farm : ∃ state store record,
    stubborn.Reachable (.up (some state) store) ∧ Waits stubborn record state store ∧
      ∀ now groups store', exec stubborn.db.handle
        (GroupServiceState.fromConfig stubborn.pocket config now) store ≠ (.ok groups, store') := by
  have hscript : stubborn.ScriptEnds (fun _ _ => true) farmStuck fun state store =>
      isStuck state store = true ∧ isSigner state = true := by
    decide +kernel
  obtain ⟨state, store, hreaches, hstuck, hsigner⟩ := hscript.reaches
  obtain ⟨record, hwaits⟩ := waits_of_isStuck hstuck
  have hreach := hreaches.mono fun _ _ _ => trivial
  refine ⟨state, store, record, hreach, hwaits, fun now groups store' => ?_⟩
  exact (failingRecord_wedges stubbornDb_faithful hreach hwaits).2 config now groups store' rfl
    (signer_of_isSigner hsigner)

/-- A later event of the group passes the gate and the policy and is not reported as stored: the
replay of the group's records that ends the write fails at the one that waits. -/
theorem failingRecord_notStored : ∃ state store record,
    stubborn.Reachable (.up (some state) store) ∧ Waits stubborn record state store ∧
      ∃ eventClass, validateClientGroupEventStructure editLater state.limits = .ok eventClass ∧
        (exec stubborn.db.handle (state.checkEvent editLater eventClass (authAs owner)) store).1 =
          .ok () ∧
        ∀ offsets, (execState stubborn.db.handle (GroupServiceState.storeGroupPocketEvent
          stubborn.pocket editLater eventClass (authAs owner)) state store).1 ≠
            .ok (.stored offsets) := by
  have hscript : stubborn.ScriptEnds (fun _ _ => true) farmStuck fun state store =>
      isStuck state store = true ∧ losesEdit state store = true := by
    decide +kernel
  obtain ⟨state, store, hreaches, hstuck, hloses⟩ := hscript.reaches
  obtain ⟨record, hwaits⟩ := waits_of_isStuck hstuck
  refine ⟨state, store, record, hreaches.mono fun _ _ _ => trivial, hwaits, ?_⟩
  unfold losesEdit at hloses
  cases hgate : validateClientGroupEventStructure editLater state.limits with
  | error e =>
    rw [hgate] at hloses
    cases hloses
  | ok eventClass =>
    rw [hgate, Except.toOption, Option.any_some, Bool.and_eq_true] at hloses
    obtain ⟨hcheck, hfails⟩ := hloses
    refine ⟨eventClass, rfl, ?_, fun offsets hstored => ?_⟩
    · cases hresult : (exec stubborn.db.handle
          (state.checkEvent editLater eventClass (authAs owner)) store).1 with
      | error e =>
        rw [hresult] at hcheck
        cases hcheck
      | ok done => rfl
    · rw [hstored] at hfails
      cases hfails

end

end Tangle
