import Tangle.Runtime.Sound

/-!
# What the service keeps

The steps of the service, one after another, keep the store sound at every operation and what the
service has seen from one step to the next. A step that fails may leave an event in the store that
the projection has not taken, but never a deletion of a group, since taking one cannot fail. The
record of a generated event is final once the step succeeds, so a replay that succeeds has left
nothing to replay (`wp_materializeWith`).
-/

namespace Tangle

open GroupEventView

variable {relay : Relay} {sources : Sources} {must : StoredEvent → Prop}
  {state state' : GroupServiceState} {store store' : PocketStore} {item : StoredEvent}

/-! ## Frames -/

/-- The next event lies behind all others. -/
theorem PocketDb.lt_nextOffset {db : PocketDb} {events : List StoredEvent}
    (hordered : events.Pairwise fun a b => a.storeOffset < b.storeOffset) :
    ∀ other ∈ events, other.storeOffset < db.nextOffset events := by
  intro other hother
  have hne : events ≠ [] := List.ne_nil_of_mem hother
  obtain ⟨earlier, last, rfl⟩ : ∃ earlier last, events = earlier ++ [last] :=
    ⟨events.dropLast, events.getLast hne, (List.dropLast_append_getLast hne).symm⟩
  have hlast : last.storeOffset < db.nextOffset (earlier ++ [last]) := by
    rw [PocketDb.nextOffset, List.getLast?_concat]
    exact db.nextEventOffset_gt last
  rcases List.mem_append.mp hother with hother | hother
  · exact lt_trans ((List.pairwise_append.mp hordered).2.2 other hother last
      (List.mem_singleton_self last)) hlast
  · exact List.mem_singleton.mp hother ▸ hlast

/-- How the service is set up is the same in both states. -/
structure SameSetup (state state' : GroupServiceState) : Prop where
  builder : state'.builder = state.builder
  authority : state'.authority = state.authority
  policy : state'.policy = state.policy
  limits : state'.limits = state.limits
  memberSnapshotCap : state'.memberSnapshotCap = state.memberSnapshotCap
  outboxReplayBatchCap : state'.outboxReplayBatchCap = state.outboxReplayBatchCap

/-- A service with another projection and outbox is set up the same. -/
theorem SameSetup.change (projection : GroupProjection) (outbox : GroupOutbox) :
    SameSetup state { state with projection := projection, outbox := outbox } :=
  ⟨rfl, rfl, rfl, rfl, rfl, rfl⟩

/-- What is set up like a service that is set up like a third is set up like that one. -/
theorem SameSetup.trans {state₁ : GroupServiceState} (h : SameSetup state state₁)
    (h' : SameSetup state₁ state') : SameSetup state state' where
  builder := h'.builder.trans h.builder
  authority := h'.authority.trans h.authority
  policy := h'.policy.trans h.policy
  limits := h'.limits.trans h.limits
  memberSnapshotCap := h'.memberSnapshotCap.trans h.memberSnapshotCap
  outboxReplayBatchCap := h'.outboxReplayBatchCap.trans h.outboxReplayBatchCap

/-- What no step changes: how the service is set up, the events that were stored, the records and
their payloads. -/
structure Continues (state : GroupServiceState) (store : PocketStore) (state' : GroupServiceState)
    (store' : PocketStore) : Prop extends SameSetup state state' where
  events : store.events <+: store'.events
  records : ∀ key record, state.outbox.get key = some record →
    ∃ record', state'.outbox.get key = some record' ∧ record'.payload = record.payload

namespace Continues

/-- A service continues itself. -/
theorem refl : Continues state store state store where
  toSameSetup := .change _ _
  events := List.prefix_refl _
  records _ record h := ⟨record, h, rfl⟩

/-- What continues a service that continues another continues that one. -/
theorem trans {state₁ : GroupServiceState} {store₁ : PocketStore}
    (h : Continues state store state₁ store₁) (h' : Continues state₁ store₁ state' store') :
    Continues state store state' store' where
  toSameSetup := h.toSameSetup.trans h'.toSameSetup
  events := h.events.trans h'.events
  records key record hget := by
    obtain ⟨record₁, hget₁, hpayload₁⟩ := h.records key record hget
    obtain ⟨record', hget', hpayload'⟩ := h'.records key record₁ hget₁
    exact ⟨record', hget', hpayload'.trans hpayload₁⟩

/-- A service that continues another has all its events. -/
theorem mem_events (h : Continues state store state' store') :
    ∀ item ∈ store.events, item ∈ store'.events :=
  fun _ hitem => h.events.subset hitem

end Continues

/-- A step has succeeded: what the service must have seen it has seen, and it has taken the events
it stored, which are of `P`. -/
structure Served (relay : Relay) (sources : Sources) (must : StoredEvent → Prop)
    (P : StoredEvent → Prop) (state : GroupServiceState) (store : PocketStore)
    (state' : GroupServiceState) (store' : PocketStore) : Prop where
  serves : Serves relay sources must state' store'
  continues : Continues state store state' store'
  applied : ∃ items, store'.events = store.events ++ items ∧
    applyItems state.limits state.projection items = .ok state'.projection ∧ ∀ item ∈ items, P item

/-- A step has failed: the service still has seen the deletions of groups. -/
structure FailedStep (relay : Relay) (sources : Sources) (state : GroupServiceState)
    (store : PocketStore) (state' : GroupServiceState) (store' : PocketStore) : Prop where
  serves : Serves relay sources Deletion state' store'
  continues : Continues state store state' store'

section
variable {P P' : StoredEvent → Prop} {state₁ : GroupServiceState} {store₁ : PocketStore}

/-- Nothing done serves the sources still. -/
theorem Served.refl (h : Serves relay sources must state store) :
    Served relay sources must P state store state store where
  serves := h
  continues := .refl
  applied := ⟨[], (List.append_nil _).symm, rfl, fun _ h => (nomatch h)⟩

/-- Steps that leave the events and the projection alone. -/
theorem Served.of_same (h : Serves relay sources must state' store')
    (hcontinues : Continues state store state' store') (hevents : store'.events = store.events)
    (hprojection : state'.projection = state.projection) :
    Served relay sources must P state store state' store' where
  serves := h
  continues := hcontinues
  applied := ⟨[], by rw [hevents, List.append_nil], by rw [hprojection]; rfl,
    fun _ h => (nomatch h)⟩

/-- What is served with one property of the new events is served with a weaker one. -/
theorem Served.mono (h : Served relay sources must P state store state' store')
    (himp : ∀ item, P item → P' item) : Served relay sources must P' state store state' store' where
  serves := h.serves
  continues := h.continues
  applied := by
    obtain ⟨items, hevents, happly, hitems⟩ := h.applied
    exact ⟨items, hevents, happly, fun item hitem => himp item (hitems item hitem)⟩

/-- Two steps that have served one after another have served together. -/
theorem Served.trans (h : Served relay sources must P state store state₁ store₁)
    (h' : Served relay sources must P state₁ store₁ state' store') :
    Served relay sources must P state store state' store' where
  serves := h'.serves
  continues := h.continues.trans h'.continues
  applied := by
    obtain ⟨items, hevents, happly, hitems⟩ := h.applied
    obtain ⟨items', hevents', happly', hitems'⟩ := h'.applied
    refine ⟨items ++ items', by rw [hevents', hevents, List.append_assoc], ?_, fun item hitem => ?_⟩
    · rw [h.continues.limits] at happly'
      unfold applyItems at happly happly' ⊢
      rw [List.foldlM_append, happly]
      exact happly'
    · exact (List.mem_append.mp hitem).elim (hitems item) (hitems' item)

/-- A step that has succeeded leaves at least what one that failed leaves. -/
theorem Served.failed (hmust : MustSee must)
    (h : Served relay sources must P state store state' store') :
    FailedStep relay sources state store state' store' where
  serves := h.serves.weaken hmust.deletions_le
  continues := h.continues

/-- A step that fails behind another leaves what it leaves of the first one's beginning. -/
theorem FailedStep.after (h : FailedStep relay sources state₁ store₁ state' store')
    (hcontinues : Continues state store state₁ store₁) :
    FailedStep relay sources state store state' store' where
  serves := h.serves
  continues := hcontinues.trans h.continues

end

/-! ## Rows -/

/-- Writing the rows of a group, one by one, keeps the store sound. -/
theorem wp_persistGroupProjection {projection : GroupProjection}
    {X : BaseRelayError → PocketStore → Prop}
    (h : store.Sound relay sources) (hcovers : ProjectionCovers .widest
      (fun item => item ∈ store.events ∧ store.CheckpointCovers item) (· ∈ store.events) projection)
    (groupId : GroupId) :
    Wp relay.db.handle (PocketStore.Sound relay sources) (persistGroupProjection projection groupId)
      store (fun _ store' => ∃ rows, store' = { store with projection := rows }) X := by
  refine Wp.forM (P := fun store' => ∃ rows, store' = { store with projection := rows }) h
    ⟨store.projection, rfl⟩ fun row hrow store' hsound ⟨rows, hrows⟩ => ?_
  subst hrows
  obtain ⟨key, hkey, hvalue, _⟩ := mem_groupRows.mp hrow
  have hput : PocketStore.Sound relay sources
      { store with projection := rows.insert row.1 row.2 } := hkey ▸ hsound.putRow hcovers hvalue
  exact Wp.perform hsound hput (fun _ _ => ⟨_, rfl⟩) fun e he => (nomatch he)

/-! ## Records -/

/-- Replacing a record by one of the same payload, in memory and in the table. -/
theorem wp_saveRecord {old record : GroupOutboxRecord}
    {X : BaseRelayError → GroupServiceState → PocketStore → Prop}
    (h : Serves relay sources must state store) (hold : state.outbox.get record.key = some old)
    (hpayload : record.payload = old.payload)
    (hrecord : RecordSound relay sources store.events record) :
    WpState relay.db.handle (PocketStore.Sound relay sources) (GroupServiceState.saveRecord record)
      state store (fun _ state' store' => Serves relay sources must state' store' ∧
        Continues state store state' store' ∧ store'.events = store.events ∧
        state' = { state with outbox := state.outbox.update record }) X := by
  have hsound := h.sound.putRecord h.rows h.records hrecord
  refine WpState.modify_seq (WpState.liftProg (Wp.perform h.sound hsound (fun _ _ => ?_)
    fun e he => (nomatch he)))
  refine ⟨⟨hsound, h.covers, h.rows.update record, h.records.update hrecord, h.signer,
    h.known, h.batch⟩,
    ⟨.change _ _, List.prefix_refl _, fun key found hfound => ?_⟩, rfl, rfl⟩
  rw [GroupOutbox.get_update]
  by_cases hkey : record.key = key
  · subst hkey
    cases hold.symm.trans hfound
    exact ⟨record, if_pos rfl, hpayload⟩
  · exact ⟨found, (if_neg hkey).trans hfound, rfl⟩

/-! ## Generated events -/

/-- A generated event is a snapshot or a membership. -/
theorem kind_of_generated {event : PocketEvent} {source : PocketEvent} {record : GroupOutboxRecord}
    (hplanned : PlannedFor relay.pocket source record)
    (hgenerates : RelayGenerates relay sources record.payload event) :
    kindU32 event ∈
      [kindGroupMetadata, kindGroupAdmins, kindGroupMembers, kindGroupPutUser,
        kindGroupRemoveUser] := by
  obtain ⟨_, _, _, _, _, _, records, _, _, hplan, planned, hmem, _, hpayload⟩ := hplanned
  obtain ⟨builder, _, hkey, hsign⟩ := hgenerates
  rw [(event_of_sign relay.lawful hkey hsign).1, ← hpayload]
  rcases (owed_of_plan hplan hmem).payload_kind with hkind | ⟨_, _, _, hkind⟩ | ⟨_, _, _, hkind⟩
  · exact List.mem_append_left [kindGroupPutUser, kindGroupRemoveUser] hkind
  · rw [hkind]
    exact .tail _ (.tail _ (.tail _ (.head _)))
  · rw [hkind]
    exact .tail _ (.tail _ (.tail _ (.tail _ (.head _))))

/-- A generated event is no create, no edit and no deletion of a group. -/
theorem not_moderates_of_generated {event source : PocketEvent} {record : GroupOutboxRecord}
    {limits : GroupLimitsConfig} {groupId : GroupId} {kind : Nat}
    (hplanned : PlannedFor relay.pocket source record)
    (hgenerates : RelayGenerates relay sources record.payload event)
    (hkind : kind ∈ [kindGroupCreateGroup, kindGroupEditMetadata, kindGroupDeleteGroup]) :
    ¬Moderates limits event kind groupId := by
  intro ⟨_, heq⟩
  have hgenerated := kind_of_generated hplanned hgenerates
  have hdistinct : ∀ kind ∈ [kindGroupCreateGroup, kindGroupEditMetadata, kindGroupDeleteGroup],
      kind ∉ [kindGroupMetadata, kindGroupAdmins, kindGroupMembers, kindGroupPutUser,
        kindGroupRemoveUser] := by decide
  exact hdistinct kind hkind (heq ▸ hgenerated)

/-- A generated event may come next. -/
theorem next_of_generated {event : PocketEvent} {record : GroupOutboxRecord}
    {projection : GroupProjection} (h : store.Sound relay sources)
    (hfresh : ∀ other ∈ store.events, other.event.id ≠ event.id)
    (hrecord : ∃ source ∈ store.events, PlannedFor relay.pocket source.event record)
    (hgenerates : RelayGenerates relay sources record.payload event) :
    Serves.Next relay sources projection store ⟨event, relay.db.nextOffset store.events⟩ where
  offset := PocketDb.lt_nextOffset h.arrived.ordered
  fresh _ := hfresh
  origin := by
    obtain ⟨source, hsource, hplanned⟩ := hrecord
    exact .generated hsource hplanned hgenerates
  made groupId hsets := by
    obtain ⟨source, _, hplanned⟩ := hrecord
    exact .inl (hsets.makes_or_edits.resolve_right
      (not_moderates_of_generated hplanned hgenerates (.tail _ (.head _))))
  created groupId hcreates := by
    obtain ⟨source, _, hplanned⟩ := hrecord
    exact absurd hcreates.moderates (not_moderates_of_generated hplanned hgenerates (.head _))

namespace GroupServiceState

/-- The event that the service would generate for a payload is stored under the id. -/
def StoredAs (relay : Relay) (builder : GroupGeneratedEventBuilder) (payload : GroupOutboxPayload)
    (events : List StoredEvent) (id : EventId) : Prop :=
  (∃ event, builder.signPayloadPocket relay.pocket payload = .ok event ∧ event.id = id) ∧
    (relay.db.Faithful → ∃ item ∈ events, item.event.id = id)

/-- A generated event is stored, applied and saved, unless it is there already. -/
theorem wp_storeGeneratedEvent {record : GroupOutboxRecord} (hmust : MustSee must)
    (h : Serves relay sources must state store)
    (hrecord : ∃ source ∈ store.events, PlannedFor relay.pocket source.event record) :
    WpState relay.db.handle (PocketStore.Sound relay sources)
      (storeGeneratedEvent relay.pocket record) state store
      (fun result state' store' => Served relay sources must
          (fun item => state.builder.signPayloadPocket relay.pocket record.payload = .ok item.event)
          state store state' store' ∧ state'.outbox = state.outbox ∧
        StoredAs relay state.builder record.payload store'.events result.1)
      fun _ state' store' => FailedStep relay sources state store state' store' ∧
        state'.outbox = state.outbox := by
  have hstay : FailedStep relay sources state store state store :=
    (Served.refl (P := fun _ => True) h).failed hmust
  refine WpState.get_seq ?_
  refine WpState.check_seq h.sound (fun generated hgenerated => ?_) fun _ _ => ⟨hstay, rfl⟩
  have hsign := Except.mapError_eq_ok.mp hgenerated
  have hgenerates : RelayGenerates relay sources record.payload generated :=
    ⟨state.builder, h.known, h.signer, hsign⟩
  refine WpState.check_seq h.sound (fun eventId heventId => ?_) fun _ _ => ⟨hstay, rfl⟩
  obtain rfl : eventId = generated.id := by
    have hnew : Hex64.new _ generated.id.text = .ok eventId := Except.mapError_eq_ok.mp heventId
    exact Except.ok.inj (hnew.symm.trans (Hex64.new_text generated.id))
  refine WpState.liftProg_seq (@wp_generatedEventAlreadyStored _ _ _ _ (fun _ _ => False) h.sound)
    (fun present store' _ ⟨hstore, hpresent, habsent⟩ => ?_) fun _ _ _ hX => hX.elim
  subst hstore
  split
  · next hyes =>
    exact WpState.pure h.sound ⟨.refl h, rfl, ⟨generated, hsign, rfl⟩, hpresent hyes⟩
  · next hno =>
    have hnext := @next_of_generated relay sources store' generated record state.projection h.sound
      (habsent (Bool.not_eq_true _ ▸ hno)) hrecord hgenerates
    have hsound := h.append hmust hnext
    -- what is left when the event is stored and not applied
    have hstored : FailedStep relay sources state store' state
        { store' with events :=
          store'.events ++ [⟨generated, relay.db.nextOffset store'.events⟩] } := by
      have hweak := h.weaken hmust.deletions_le
      refine ⟨⟨hsound, hweak.passed hnext.offset ?_, h.rows, fun key record hget => ?_, h.signer,
        h.known, h.batch⟩, .change _ _, List.prefix_append _ _,
          fun key record hget => ⟨record, hget, rfl⟩⟩
      · rintro ⟨groupId, hdeletes⟩
        obtain ⟨source, _, hplanned⟩ := hrecord
        exact not_moderates_of_generated hplanned hgenerates (.tail _ (.tail _ (.head _)))
          hdeletes.moderates
      · exact (h.records key record hget).mono fun _ => List.mem_append_left _
    refine WpState.liftProg_seq (wp_storeEvent h.sound fun _ => hsound)
      (fun offset stored _ ⟨_, hoffset, hstore⟩ => ?_) fun _ refused _ ⟨_, hrefused⟩ => ?_
    · subst hoffset hstore
      refine WpState.check_seq hsound (fun result hresult => ?_) fun _ _ => ⟨hstored, rfl⟩
      have happly : applyItem state.limits state.projection
          ⟨generated, relay.db.nextOffset store'.events⟩ = .ok result.2 :=
        applyItem_of_applyCanonicalEvent (Except.mapError_eq_ok.mp hresult)
      have hcovers := h.applied hmust hnext happly
      refine WpState.set_seq (WpState.liftProg_seq (wp_persistGroupProjection
        (X := fun _ _ => False)
        hsound (hcovers.mono (fun _ ⟨hitem, hupTo⟩ => ⟨hitem, .inr hupTo⟩) fun _ h => h) _)
        (fun _ persisted hsound' ⟨rows, hpersisted⟩ => ?_) fun _ _ _ hX => hX.elim)
      subst hpersisted
      refine WpState.pure hsound' ⟨⟨⟨hsound', hcovers, h.rows, fun key record hget => ?_, h.signer,
        h.known, h.batch⟩, ⟨.change _ _, List.prefix_append _ _, fun key record hget =>
          ⟨record, hget, rfl⟩⟩,
        [_], rfl, ?_, fun item hitem => ?_⟩, rfl, ⟨generated, hsign, rfl⟩,
        fun _ => ⟨⟨generated, relay.db.nextOffset store'.events⟩, ?_, rfl⟩⟩
      · exact (h.records key record hget).mono fun _ => List.mem_append_left _
      · exact Except.foldlM_cons_ok.mpr ⟨_, happly, rfl⟩
      · cases List.mem_singleton.mp hitem
        exact hsign
      · exact List.mem_append_right _ (List.mem_singleton_self _)
    · subst hrefused
      exact ⟨hstay, rfl⟩

/-! ## Replays -/

/-- The relay generates no roles. -/
theorem supported_of_planned {event : PocketEvent} {record : GroupOutboxRecord}
    (h : PlannedFor relay.pocket event record) :
    ¬(record.key.effect = .roleListSnapshot ∨ record.key.effect = .state39004Snapshot) := by
  obtain ⟨_, _, _, _, _, _, records, _, _, hplan, planned, hmem, hkey, _⟩ := h
  rw [← hkey]
  cases owed_of_plan hplan hmem with
  | metadata => intro heffect; cases heffect with | inl h => cases h | inr h => cases h
  | admins => intro heffect; cases heffect with | inl h => cases h | inr h => cases h
  | members => intro heffect; cases heffect with | inl h => cases h | inr h => cases h
  | tooManyMembers => intro heffect; cases heffect with | inl h => cases h | inr h => cases h
  | join => intro heffect; cases heffect with | inl h => cases h | inr h => cases h
  | leave => intro heffect; cases heffect with | inl h => cases h | inr h => cases h

/-- The records have been made final, their events are stored, and other records are as they
were. -/
structure Settles (relay : Relay) (records : List GroupOutboxRecord)
    (state state' : GroupServiceState)
    (store' : PocketStore) : Prop where
  settled : ∀ record ∈ records, ∃ record', state'.outbox.get record.key = some record' ∧
    record'.isRetryable = false
  others : ∀ key, (∀ record ∈ records, record.key ≠ key) →
    state'.outbox.get key = state.outbox.get key
  stored : ∀ record ∈ records, ∃ id,
    StoredAs relay state.builder record.payload store'.events id

/-- The event is the one the service generates for one of the records. -/
def GeneratedFor (relay : Relay) (builder : GroupGeneratedEventBuilder)
    (records : List GroupOutboxRecord) (item : StoredEvent) : Prop :=
  ∃ record ∈ records, builder.signPayloadPocket relay.pocket record.payload = .ok item.event

/-- The event of a record is stored and the record is final, or the record is one to try again. -/
theorem wp_materializeRecord {record : GroupOutboxRecord} (hmust : MustSee must)
    (h : Serves relay sources must state store)
    (hget : state.outbox.get record.key = some record) :
    WpState relay.db.handle (PocketStore.Sound relay sources)
      (materializeRecord relay.pocket record) state store
      (fun _ state' store' =>
        Served relay sources must
          (GeneratedFor relay state.builder [record]) state store state' store' ∧
          Settles relay [record] state state' store')
      (fun _ => FailedStep relay sources state store) := by
  have hrecord := h.records _ _ hget
  unfold materializeRecord
  split
  · next hunsupported =>
    obtain ⟨source, _, hplanned⟩ := hrecord.planned
    exact absurd hunsupported (supported_of_planned hplanned)
  refine WpState.attempt_seq (wp_storeGeneratedEvent hmust h hrecord.planned)
    (fun result state₁ store₁ _ ⟨hserved, houtbox, hstored⟩ => ?_)
    fun error state₁ store₁ _ ⟨hfailed, houtbox⟩ => ?_
  · have hplanned := (hrecord.mono hserved.continues.mem_events).planned
    have hfinal : RecordSound relay sources store₁.events (record.markStored result.1) := by
      obtain ⟨⟨event, hsign, hid⟩, hpresent⟩ := hstored
      refine ⟨hplanned, fun h => (nomatch h), fun id hstatus => ?_⟩
      cases hstatus
      exact ⟨⟨event, ⟨state.builder, h.known, h.signer, hsign⟩, hid⟩, hpresent⟩
    have hold : state₁.outbox.get record.key = some record := houtbox ▸ hget
    refine WpState.seq (wp_saveRecord (X := fun _ _ _ => False) hserved.serves hold rfl
      hfinal) (fun _ state₂ store₂ hsound ⟨hserves, hcontinues, hevents, hstate⟩ => ?_)
      fun _ _ _ _ hX => hX.elim
    refine WpState.pure hsound ⟨(hserved.mono fun item hsign => ⟨record, .head _, hsign⟩).trans
      (.of_same hserves hcontinues hevents (by rw [hstate])), fun r hr => ?_, fun key hne => ?_,
      fun r hr => ?_⟩
    · cases List.mem_singleton.mp hr
      refine ⟨record.markStored result.1, ?_, rfl⟩
      rw [hstate, GroupOutbox.get_update]
      exact if_pos rfl
    · rw [hstate, GroupOutbox.get_update, ← houtbox]
      exact if_neg (hne record (.head _))
    · cases List.mem_singleton.mp hr
      exact ⟨result.1, hevents ▸ hstored⟩
  · have hplanned := (hrecord.mono hfailed.continues.mem_events).planned
    have hretry : RecordSound relay sources store₁.events
        (record.markFailed true error.prefixedMessage) :=
      ⟨hplanned, fun h => (nomatch h), fun id hstatus => (nomatch hstatus)⟩
    have hold : state₁.outbox.get record.key = some record := houtbox ▸ hget
    refine WpState.seq (wp_saveRecord (X := fun _ _ _ => False) hfailed.serves hold rfl
      hretry) (fun _ state₂ store₂ hsound ⟨hserves, hcontinues, _, _⟩ =>
        ?_) fun _ _ _ _ hX => hX.elim
    exact WpState.throw hsound ⟨hserves, hfailed.continues.trans hcontinues⟩

/-- Records made final one after another. -/
theorem Settles.cons {record : GroupOutboxRecord} {records : List GroupOutboxRecord}
    {state₁ : GroupServiceState} {store₁ : PocketStore}
    (h : Settles relay [record] state state₁ store₁) (hnot : ∀ r ∈ records, r.key ≠ record.key)
    (hbuilder : state₁.builder = state.builder)
    (hevents : ∀ item ∈ store₁.events, item ∈ store'.events)
    (hrest : Settles relay records state₁ state' store') :
    Settles relay (record :: records) state state' store' where
  settled r hr := by
    rcases List.mem_cons.mp hr with rfl | hr
    · rw [hrest.others r.key hnot]
      exact h.settled r (.head _)
    · exact hrest.settled r hr
  others key hne := by
    rw [hrest.others key fun r hr => hne r (List.mem_cons_of_mem _ hr)]
    exact h.others key fun r hr => List.mem_singleton.mp hr ▸ hne record (List.mem_cons_self ..)
  stored r hr := by
    rcases List.mem_cons.mp hr with rfl | hr
    · obtain ⟨id, hsign, hstored⟩ := h.stored r (.head _)
      refine ⟨id, hsign, fun hdb => ?_⟩
      obtain ⟨item, hitem, hid⟩ := hstored hdb
      exact ⟨item, hevents item hitem, hid⟩
    · exact hbuilder ▸ hrest.stored r hr

/-- **A replay of a list serves what it has worked off**: the events generated are of the records
tried, and each record is final afterwards unless it failed. By induction on the list. -/
theorem wp_materializeRecords {records : List GroupOutboxRecord} (hmust : MustSee must)
    (h : Serves relay sources must state store)
    (hget : ∀ record ∈ records, state.outbox.get record.key = some record)
    (hnodup : (records.map GroupOutboxRecord.key).Nodup) :
    WpState relay.db.handle (PocketStore.Sound relay sources)
      (materializeRecords relay.pocket records) state store
      (fun _ state' store' =>
        Served relay sources must
          (GeneratedFor relay state.builder records) state store state' store' ∧
          Settles relay records state state' store')
      (fun _ => FailedStep relay sources state store) := by
  induction records generalizing state store with
  | nil =>
    exact WpState.pure h.sound ⟨.refl h, fun _ h => (nomatch h), fun _ _ => rfl,
      fun _ h => (nomatch h)⟩
  | cons record rest ih =>
    obtain ⟨hnot, hnodup⟩ := List.nodup_cons.mp hnodup
    have hne : ∀ r ∈ rest, r.key ≠ record.key :=
      fun r hr heq => hnot (heq ▸ List.mem_map_of_mem hr)
    refine WpState.seq (wp_materializeRecord hmust h (hget record (List.mem_cons_self ..)))
      (fun offset state₁ store₁ _ ⟨hserved, hsettles⟩ => ?_) fun _ _ _ _ hX => hX
    have hget₁ : ∀ r ∈ rest, state₁.outbox.get r.key = some r := fun r hr => by
      rw [hsettles.others r.key fun other hother =>
        List.mem_singleton.mp hother ▸ Ne.symm (hne r hr)]
      exact hget r (List.mem_cons_of_mem _ hr)
    refine WpState.seq (ih hserved.serves hget₁ hnodup)
      (fun offsets state₂ store₂ hsound ⟨hserved₂, hsettles₂⟩ => ?_)
      fun _ state₂ store₂ _ hfailed => hfailed.after hserved.continues
    have hbuilder := hserved.continues.builder
    refine WpState.pure hsound ⟨(hserved.mono fun item ⟨r, hr, hsign⟩ => ?_).trans
      (hserved₂.mono fun item ⟨r, hr, hsign⟩ => ?_), hsettles.cons hne hbuilder
        hserved₂.continues.mem_events hsettles₂⟩
    · exact ⟨r, List.mem_cons_of_mem _ hr, hbuilder ▸ hsign⟩
    · cases List.mem_singleton.mp hr
      exact ⟨record, List.mem_cons_self .., hsign⟩

section
variable {keep : GroupOutboxRecord → Bool} {outbox outbox' : GroupOutbox}

/-- The records of a replay are those of the outbox that are retryable and included. -/
theorem mem_plan_iff (h : outbox.Keyed) {record : GroupOutboxRecord} :
    record ∈ outbox.replayPlanMatching keep ↔
      outbox.get record.key = some record ∧ record.isRetryable = true ∧ keep record = true := by
  rw [GroupOutbox.mem_replayPlanMatching]
  refine and_congr_left fun _ => ⟨fun ⟨key, hget⟩ => ?_, fun hget => ⟨_, hget⟩⟩
  rw [h key record hget]
  exact hget

/-- A replay holds no key twice. -/
theorem nodup_plan (h : outbox.Keyed) :
    ((outbox.replayPlanMatching keep).map GroupOutboxRecord.key).Nodup := by
  have hkeys : (outbox.records.toList.map Prod.snd).map GroupOutboxRecord.key =
      outbox.records.toList.map Prod.fst := by
    rw [List.map_map]
    refine List.map_congr_left fun entry hentry => ?_
    exact h entry.1 entry.2 (BTreeMap.mem_toList.mp hentry)
  have hnodup : ((outbox.records.toList.map Prod.snd).map GroupOutboxRecord.key).Nodup :=
    hkeys ▸ BTreeMap.nodup_keys_toList
  unfold GroupOutbox.replayPlanMatching
  refine ((List.perm_insertionSort _ _).map _).nodup_iff.mpr ?_
  exact hnodup.sublist (List.filter_sublist.map _)

/-- What is still to be replayed was to be replayed before, and is none of the records that were
made final. -/
theorem mem_replan_iff {records : List GroupOutboxRecord}
    (hfinal : ∀ record ∈ records, ∃ record', outbox'.get record.key = some record' ∧
      record'.isRetryable = false)
    (hothers : ∀ key, (∀ record ∈ records, record.key ≠ key) → outbox'.get key = outbox.get key)
    (hkeyed : outbox.Keyed) (hkeyed' : outbox'.Keyed) {record : GroupOutboxRecord} :
    record ∈ outbox'.replayPlanMatching keep ↔
      record ∈ outbox.replayPlanMatching keep ∧ ∀ r ∈ records, r.key ≠ record.key := by
  rw [mem_plan_iff hkeyed, mem_plan_iff hkeyed']
  refine ⟨fun ⟨hget, hretry, hkeep⟩ => ?_, fun ⟨⟨hget, hretry, hkeep⟩, hne⟩ => ?_⟩
  · have hne : ∀ r ∈ records, r.key ≠ record.key := by
      intro r hr heq
      obtain ⟨final, hget', hnot⟩ := hfinal r hr
      rw [heq, hget] at hget'
      cases hget'
      cases hretry.symm.trans hnot
    exact ⟨⟨(hothers record.key hne).symm.trans hget, hretry, hkeep⟩, hne⟩
  · exact ⟨(hothers record.key hne).trans hget, hretry, hkeep⟩

/-- A plan without its first records is shorter. -/
theorem length_replan_lt {plan : List GroupOutboxRecord} {cap : Nat} (hkeyed' : outbox'.Keyed)
    (hreplan : ∀ r, r ∈ outbox'.replayPlanMatching keep ↔
      r ∈ plan ∧ ∀ other ∈ plan.take cap, other.key ≠ r.key)
    (hcap : 0 < cap) (hsome : plan ≠ []) :
    (outbox'.replayPlanMatching keep).length < plan.length := by
  have hrest : ∀ r ∈ outbox'.replayPlanMatching keep, r ∈ plan.drop cap := by
    intro r hr
    obtain ⟨hmem, hne⟩ := (hreplan r).mp hr
    rw [← List.take_append_drop cap plan] at hmem
    exact (List.mem_append.mp hmem).resolve_left fun hr => hne r hr rfl
  have hdistinct : (outbox'.replayPlanMatching keep).Nodup := (nodup_plan hkeyed').of_map
  have hle := (List.subperm_of_subset hdistinct hrest).length_le
  have hpos : 0 < plan.length := List.length_pos_iff.mpr hsome
  rw [List.length_drop] at hle
  omega

end

/-- A replay has left nothing to replay: the event of each of its records is stored. -/
structure Replayed (relay : Relay) (keep : GroupOutboxRecord → Bool)
    (state state' : GroupServiceState)
    (store' : PocketStore) : Prop where
  done : state'.outbox.replayPlanMatching keep = []
  stored : ∀ record ∈ state.outbox.replayPlanMatching keep, ∃ id,
    StoredAs relay state.builder record.payload store'.events id

/-- Batch after batch, the plan gets shorter, so a loop with more steps than the plan has records
ends with nothing to replay. -/
theorem wp_materializeLoop {keep : GroupOutboxRecord → Bool} (hmust : MustSee must)
    (h : Serves relay sources must state store) {steps : Nat}
    (hsteps : (state.outbox.replayPlanMatching keep).length < steps) :
    WpState relay.db.handle (PocketStore.Sound relay sources)
      (materializeLoop relay.pocket (fun outbox => outbox.replayPlanMatching keep) steps)
        state store
      (fun _ state' store' => Served relay sources must
          (GeneratedFor relay state.builder (state.outbox.replayPlanMatching keep)) state
            store state'
          store' ∧ Replayed relay keep state state' store')
      (fun _ => FailedStep relay sources state store) := by
  induction steps generalizing state store with
  | zero => exact absurd hsteps (Nat.not_lt_zero _)
  | succ steps ih =>
    refine WpState.get_seq ?_
    dsimp only
    generalize hplan : state.outbox.replayPlanMatching keep = plan at hsteps ⊢
    generalize hbatch : plan.take state.outboxReplayBatchCap.toNat = batch
    have hkeyed := h.rows.keyed
    have hsub : ∀ r ∈ batch, r ∈ plan := fun r hr => List.mem_of_mem_take (hbatch ▸ hr)
    split
    · next hempty =>
      -- batches are not empty while there is something to replay
      have hnil : plan = [] := by
        rw [List.isEmpty_iff, ← hbatch, List.take_eq_nil_iff] at hempty
        exact hempty.resolve_left (Nat.ne_of_gt h.batch)
      exact WpState.pure h.sound ⟨.refl h, hplan.trans hnil, fun r hr => by
        rw [hplan, hnil] at hr
        cases hr⟩
    · next hnonempty =>
      have hget : ∀ r ∈ batch, state.outbox.get r.key = some r :=
        fun r hr => ((mem_plan_iff hkeyed).mp (hplan ▸ hsub r hr)).1
      have hnodup : (plan.map GroupOutboxRecord.key).Nodup := hplan ▸ nodup_plan hkeyed
      have hnodupBatch : (batch.map GroupOutboxRecord.key).Nodup :=
        hnodup.sublist (hbatch ▸ (List.take_sublist _ _).map _)
      refine WpState.seq (wp_materializeRecords hmust h hget hnodupBatch)
        (fun offsets state₁ store₁ _ ⟨hserved, hsettles⟩ => ?_) fun _ _ _ _ hX => hX
      have hkeyed₁ := hserved.serves.rows.keyed
      have hreplan : ∀ r, r ∈ state₁.outbox.replayPlanMatching keep ↔
          r ∈ plan ∧ ∀ other ∈ batch, other.key ≠ r.key :=
        fun r => hplan ▸ mem_replan_iff hsettles.settled hsettles.others hkeyed hkeyed₁
      have hshorter : (state₁.outbox.replayPlanMatching keep).length < steps := by
        have hsome : plan ≠ [] := fun hnil => hnonempty (by rw [← hbatch, hnil, List.take_nil]; rfl)
        have hlt := length_replan_lt hkeyed₁ (hbatch ▸ hreplan) h.batch hsome
        omega
      refine WpState.seq (ih hserved.serves hshorter)
        (fun more state₂ store₂ hsound ⟨hserved₂, hreplayed⟩ => ?_)
        fun _ state₂ store₂ _ hfailed => hfailed.after hserved.continues
      have hbuilder := hserved.continues.builder
      refine WpState.pure hsound ⟨(hserved.mono fun item ⟨r, hr, hsign⟩ => ?_).trans
        (hserved₂.mono fun item ⟨r, hr, hsign⟩ => ?_), hreplayed.done, fun r hr => ?_⟩
      · exact ⟨r, ((hreplan r).mp hr).1, hbuilder ▸ hsign⟩
      · exact ⟨r, hsub r hr, hsign⟩
      · rw [hplan] at hr
        by_cases hin : ∃ other ∈ batch, other.key = r.key
        · obtain ⟨other, hother, hkey⟩ := hin
          have hsame := hget other hother
          rw [hkey, ((mem_plan_iff hkeyed).mp (hplan ▸ hr)).1] at hsame
          cases hsame
          obtain ⟨id, hsign, hstored⟩ := hsettles.stored r hother
          refine ⟨id, hsign, fun hdb => ?_⟩
          obtain ⟨item, hitem, hid⟩ := hstored hdb
          exact ⟨item, hserved₂.continues.mem_events item hitem, hid⟩
        · exact hbuilder ▸ hreplayed.stored r ((hreplan r).mpr
            ⟨hr, fun other hother hkey => hin ⟨other, hother, hkey⟩⟩)

/-- **A replay that succeeds leaves nothing to replay.** -/
theorem wp_materializeWith {keep : GroupOutboxRecord → Bool} (hmust : MustSee must)
    (h : Serves relay sources must state store) :
    WpState relay.db.handle (PocketStore.Sound relay sources)
      (materializeWith relay.pocket fun outbox => outbox.replayPlanMatching keep) state store
      (fun _ state' store' => Served relay sources must
          (GeneratedFor relay state.builder (state.outbox.replayPlanMatching keep)) state
            store state'
          store' ∧ Replayed relay keep state state' store')
      (fun _ => FailedStep relay sources state store) :=
  WpState.get_seq (wp_materializeLoop hmust h (Nat.lt_succ_self _))

end GroupServiceState

end Tangle
