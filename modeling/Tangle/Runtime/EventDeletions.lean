import Tangle.Groups.SnapshotIds
import Tangle.Runtime.Script
import Tangle.Runtime.Serving
import Tangle.Runtime.Upkeep

/-!
# Event deletions stay in their group

A deletion is kept under the id of its target only, and the group it is kept with is that of the
event that asked for it. That the target is of this group is looked up once, before the event is
stored, so it has to hold of every entry from then on: through failed writes, stops at any point and
starts under other limits (`deletionUpkeep`). What a deletion changes is told by a second invariant,
which fixes the projection outside the group and outside the target (`outsideUpkeep`).
-/

namespace Tangle

open GroupEventView

section
variable {relay : Relay} {limits : GroupLimitsConfig} {event : PocketEvent} {groupId : GroupId}
  {state : GroupServiceState} {store : PocketStore} {base : List StoredEvent}

/-! ## Targets -/

/-- An event of this id is stored and is of the group. -/
def StoredIn (limits : GroupLimitsConfig) (base : List StoredEvent) (groupId : GroupId)
    (id : EventId) : Prop :=
  ∃ item ∈ base, item.event.id = id ∧ OfGroup limits groupId item

/-- What the event deletes is stored and of the event's group. -/
def DeletesStored (limits : GroupLimitsConfig) (base : List StoredEvent) (event : PocketEvent) :
    Prop :=
  ∀ groupId target, eventAction event .widest = .ok (.deleteEvent groupId target) →
    StoredIn limits base groupId target

/-- An event that is stored is stored among more. -/
theorem StoredIn.mono {base' : List StoredEvent} {id : EventId}
    (h : StoredIn limits base groupId id) (hsub : ∀ item ∈ base, item ∈ base') :
    StoredIn limits base' groupId id := by
  obtain ⟨item, hitem, hid, hof⟩ := h
  exact ⟨item, hsub item hitem, hid, hof⟩

/-- An event of a group under some limits is one under the widest. -/
theorem StoredIn.widest {id : EventId} (h : StoredIn limits base groupId id) :
    StoredIn .widest base groupId id := by
  obtain ⟨item, hitem, hid, eventClass, hclass, hgroup⟩ := h
  exact ⟨item, hitem, hid, eventClass, classifyGroupEvent_widest hclass, hgroup⟩

/-- Limits that classify the stored events say the same of them. -/
theorem StoredIn.of_widest {id : EventId} (h : StoredIn .widest base groupId id)
    (hclassified : ∀ item ∈ base, (classifyGroupEvent item.event limits).Succeeds) :
    StoredIn limits base groupId id := by
  obtain ⟨item, hitem, hid, eventClass, hclass, hgroup⟩ := h
  obtain ⟨found, hfound⟩ := hclassified item hitem
  cases (classifyGroupEvent_widest hfound).symm.trans hclass
  exact ⟨item, hitem, hid, eventClass, hfound, hgroup⟩

/-- A deletion whose target was found and checked. -/
theorem target_of_checkDelete
    (h : (exec relay.db.handle (state.checkDeleteEventTarget event groupId) store).1 = .ok ()) :
    ∃ target found eventClass, deleteTargetEventId event = .ok target ∧
      relay.db.findById store.events target = some found ∧
      classifyGroupEvent found state.limits = .ok eventClass ∧
      eventClass.groupId = some groupId := by
  rw [GroupServiceState.checkDeleteEventTarget, exec_bind, exec_liftExcept] at h
  cases htarget : deleteTargetEventId event with
  | error e => rw [htarget] at h; cases h
  | ok target =>
    rw [htarget] at h
    dsimp only at h
    rw [exec_bind, exec_eventById] at h
    cases hfind : relay.db.findById store.events target with
    | none => rw [hfind] at h; cases h
    | some found =>
      rw [hfind] at h
      dsimp only at h
      rw [exec_bind, exec_liftExcept] at h
      cases hclass : classifyGroupEvent found state.limits with
      | error e => rw [hclass] at h; cases h
      | ok eventClass =>
        rw [hclass] at h
        dsimp only at h
        split at h
        · cases h
        · next hgroup => exact ⟨target, found, eventClass, rfl, hfind, hclass, not_not.mp hgroup⟩

/-- The target of an accepted deletion is stored in the group. -/
theorem storedIn_of_checkDelete (hdb : relay.db.FindsStored)
    (h : (exec relay.db.handle (state.checkDeleteEventTarget event groupId) store).1 = .ok ()) :
    ∃ target, deleteTargetEventId event = .ok target ∧
      StoredIn state.limits store.events groupId target := by
  obtain ⟨target, found, eventClass, htarget, hfind, hclass, hgroup⟩ := target_of_checkDelete h
  obtain ⟨hid, item, hitem, rfl⟩ := hdb.stored hfind
  exact ⟨target, htarget, item, hitem, hid, eventClass, hclass, hgroup⟩

/-- What a deletion deletes is read off its tags, whatever the limits. -/
theorem deletionTarget_of_eventAction {target : EventId}
    (h : eventAction event limits = .ok (.deleteEvent groupId target)) :
    deletionTarget event = .ok target := by
  obtain ⟨hclass, hkind⟩ := source_of_eventAction h
  rw [eventAction, hclass, Except.ok_bind] at h
  simp only [classAction, moderationAction, hkind] at h
  obtain ⟨found, hfound, heq⟩ := Except.map_eq_ok.mp h
  cases heq
  exact hfound

/-- An accepted event deletes what is stored and of its group. -/
theorem deletesStored_of_checkEvent (hdb : relay.db.FindsStored) {eventClass : GroupEventClass}
    {auth : GroupAuthContext} (hclass : classifyGroupEvent event state.limits = .ok eventClass)
    (h : (exec relay.db.handle (state.checkEvent event eventClass auth) store).1 = .ok ()) :
    DeletesStored state.limits store.events event := by
  intro groupId target haction
  obtain ⟨hwide, hkind⟩ := source_of_eventAction haction
  cases (classifyGroupEvent_widest hclass).symm.trans hwide
  have hvalue : (eventKind event).value = kindGroupDeleteEvent :=
    (eventKind_value event).trans hkind
  obtain ⟨found, hfound, hstored⟩ :=
    storedIn_of_checkDelete hdb (checkDelete_of_checkEvent hvalue h)
  cases (deletionTarget_of_deleteTarget hfound).symm.trans (deletionTarget_of_eventAction haction)
  exact hstored

/-! ## Entries -/

/-- Deletions of a projection whose entries carry their names are of stored events of their
groups. -/
structure GroupProjection.DeletesStored (limits : GroupLimitsConfig) (base : List StoredEvent)
    (projection : GroupProjection) : Prop where
  named : projection.Named
  deletions : ∀ id deletion, projection.eventDeletion id = some deletion →
    StoredIn limits base deletion.groupId id

/-- The same of a store: of the deletions among its events and of those in its rows. Its outbox rows
are of records that were planned. -/
structure PocketStore.DeletesStored (relay : Relay) (base : List StoredEvent)
    (store : PocketStore) : Prop where
  holds : ∀ item ∈ base, item ∈ store.events
  events : ∀ item ∈ store.events, Tangle.DeletesStored .widest base item.event
  rows : ∀ (key : Text) (value : ExtraValue), store.projection[key]? = some value →
    ∀ deletion, GroupEventDeletion.fromJsonBytes value = .ok deletion →
      StoredIn .widest base deletion.groupId deletion.targetEventId
  records : ∀ (key : Text) (value : ExtraValue), store.outbox[key]? = some value →
    ∀ record, GroupOutboxRecord.fromJsonBytes value = .ok record →
      ∃ event, PlannedFor relay.pocket event record

/-- That deletions are of stored events, part by part. -/
def deletionUpkeep (relay : Relay) (limits : GroupLimitsConfig) (base : List StoredEvent) :
    Upkeep where
  store := PocketStore.DeletesStored relay base
  event := Tangle.DeletesStored limits base
  projection := GroupProjection.DeletesStored limits base
  record record := ∃ event, PlannedFor relay.pocket event record
  authority _ := True

/-- A record with the same key and payload is planned for the same event. -/
theorem PlannedFor.congr {record record' : GroupOutboxRecord}
    (h : PlannedFor relay.pocket event record) (hkey : record'.key = record.key)
    (hpayload : record'.payload = record.payload) : PlannedFor relay.pocket event record' := by
  obtain ⟨limits, eventClass, projection, authority, cap, before, records, hnamed, hclass, hplan,
    planned, hmem, hkey', hpayload'⟩ := h
  exact ⟨limits, eventClass, projection, authority, cap, before, records, hnamed, hclass, hplan,
    planned, hmem, hkey'.trans hkey.symm, hpayload'.trans hpayload.symm⟩

/-- A record that is planned was planned for its event. -/
theorem plannedFor_of_plan {eventClass : GroupEventClass} {projection : GroupProjection}
    {authority : GroupAuthority} {cap : UInt32} {before : Option Bool}
    {records : List GroupOutboxRecord} (hnamed : projection.Named)
    (hclass : classifyGroupEvent event limits = .ok eventClass)
    (hplan : planGroupOutboxRecords relay.pocket event eventClass projection authority cap before =
      .ok records) : ∀ record ∈ records, ∃ event, PlannedFor relay.pocket event record :=
  fun record hrecord => ⟨event, limits, eventClass, projection, authority, cap, before, records,
    hnamed, hclass, hplan, record, hrecord, rfl, rfl⟩

/-- A generated event deletes nothing. -/
theorem not_deleteEvent_of_generated {record : GroupOutboxRecord} {source : PocketEvent}
    {builder : GroupGeneratedEventBuilder} {target : EventId}
    (hplanned : PlannedFor relay.pocket source record)
    (hkey : relay.pocket.publicKey builder.signer.secret = .ok builder.signer.publicKey)
    (hsign : builder.signPayloadPocket relay.pocket record.payload = .ok event) :
    eventAction event limits ≠ .ok (.deleteEvent groupId target) := by
  intro haction
  obtain ⟨_, hkind⟩ := source_of_eventAction haction
  have hgenerated := @kind_of_generated relay ⟨fun _ => False, fun _ => True⟩ _ _ _ hplanned
    ⟨builder, trivial, hkey, hsign⟩
  rw [hkind] at hgenerated
  revert hgenerated
  decide

section
variable {projection projection' : GroupProjection} {item : StoredEvent}

/-- Taking an event keeps the deletions where they belong. -/
theorem GroupProjection.DeletesStored.applyItem {limits' : GroupLimitsConfig}
    (h : projection.DeletesStored limits base) (hitem : Tangle.DeletesStored limits base item.event)
    (happly : applyItem limits' projection item = .ok projection') :
    projection'.DeletesStored limits base where
  named := h.named.applyItem happly
  deletions id deletion hdeletion := by
    have hlookup : (deletionField.get projection')[id]? = some deletion := hdeletion
    rw [deletionField.applyItem happly] at hlookup
    cases hwrite : deletionField.write limits' item with
    | none =>
      rw [hwrite] at hlookup
      exact h.deletions id deletion hlookup
    | some write =>
      obtain ⟨groupId, haction, hvalue⟩ := deletionField_write hwrite
      rw [hwrite, Option.elim_some, Lww.getElem?_put] at hlookup
      split at hlookup
      · next hid =>
        cases hlookup
        rw [hvalue, ← hid.1]
        exact hitem groupId _ (eventAction_widest haction rfl)
      · exact h.deletions id deletion hlookup

/-- The row of a deletion is read back as that deletion. -/
theorem GroupProjection.DeletesStored.row {key : ProjectionKey} {value : ExtraValue}
    {deletion : GroupEventDeletion} (h : projection.DeletesStored limits base)
    (hrow : projection.row key = some value)
    (hread : GroupEventDeletion.fromJsonBytes value = .ok deletion) :
    StoredIn .widest base deletion.groupId deletion.targetEventId := by
  cases key with
  | eventDeletion id =>
    obtain ⟨held, hheld, rfl⟩ := Option.map_eq_some_iff.mp hrow
    obtain ⟨rfl, _⟩ := GroupEventDeletion.fromJsonBytes_toJsonBytes_eq_ok.mp hread
    rw [h.named.eventDeletion hheld]
    exact (h.deletions id _ hheld).widest
  | _ =>
    obtain ⟨entry, _, rfl⟩ := Option.map_eq_some_iff.mp hrow
    cases hread

end

/-- What holds of every record that rows are read as holds with the row of such a record too. -/
theorem records_insert {P : GroupOutboxRecord → Prop} {rows : BTreeMap Text ExtraValue}
    {record : GroupOutboxRecord}
    (h : ∀ (key : Text) (value : ExtraValue), rows[key]? = some value →
      ∀ record, GroupOutboxRecord.fromJsonBytes value = .ok record → P record)
    (hrecord : P record) (text : Text) (value : ExtraValue)
    (hfound : (rows.insert record.key.storageKey record.toJsonBytes)[text]? = some value)
    (other : GroupOutboxRecord) (hread : GroupOutboxRecord.fromJsonBytes value = .ok other) :
    P other := by
  rw [BTreeMap.getElem?_insert] at hfound
  split at hfound
  · cases hfound
    obtain ⟨rfl, _⟩ := GroupOutboxRecord.fromJsonBytes_toJsonBytes_eq_ok.mp hread
    exact hrecord
  · exact h text value hfound other hread

/-- Writes keep every deletion one of a stored event. -/
theorem deletionUpkeep_writes (relay : Relay) (limits' limits : GroupLimitsConfig)
    (base : List StoredEvent) :
    (deletionUpkeep relay limits base).Writes relay limits' fun _ => True where
  taken h hitem happly := h.applyItem hitem happly
  planned h _ hclass hplan := plannedFor_of_plan h.named hclass hplan
  marked := fun ⟨event, hplanned⟩ hkey hpayload => ⟨event, hplanned.congr hkey hpayload⟩
  generated := fun ⟨event, hplanned⟩ _ hkey hsign groupId target haction =>
    absurd haction (not_deleteEvent_of_generated hplanned hkey hsign)
  storeEvent {store event offset} h hevent _ := by
    refine ⟨fun item hitem => List.mem_append_left _ (h.holds item hitem), fun item hitem => ?_,
      h.rows, h.records⟩
    rcases List.mem_append.mp hitem with hitem | hitem
    · exact h.events item hitem
    · obtain rfl := List.mem_singleton.mp hitem
      exact fun groupId target haction => (hevent groupId target haction).widest
  putRow {store projection key value} h hprojection hrow := by
    refine ⟨h.holds, h.events, fun text found hfound deletion hread => ?_, h.records⟩
    dsimp only at hfound
    rw [BTreeMap.getElem?_insert] at hfound
    split at hfound
    · cases hfound
      exact hprojection.row hrow hread
    · exact h.rows text found hfound deletion hread
  putRecord h hrecord :=
    ⟨h.holds, h.events, h.rows, records_insert h.records hrecord⟩

/-- The records of an outbox that was read are those of its rows. -/
theorem exists_row_of_loadGroupOutbox {rows : BTreeMap Text ExtraValue} {outbox : GroupOutbox}
    {key : GroupOutboxKey} {record : GroupOutboxRecord}
    (hload : loadGroupOutbox rows.toList = .ok outbox) (hget : outbox.get key = some record) :
    ∃ (text : Text) (value : ExtraValue), rows[text]? = some value ∧
      GroupOutboxRecord.fromJsonBytes value = .ok record := by
  have hall : ∀ key record, outbox.get key = some record →
      ∃ (text : Text) (value : ExtraValue), rows[text]? = some value ∧
        GroupOutboxRecord.fromJsonBytes value = .ok record := by
    refine Except.foldlM_invariant (fun outbox : GroupOutbox => ∀ key record,
      outbox.get key = some record → ∃ (text : Text) (value : ExtraValue),
        rows[text]? = some value ∧ GroupOutboxRecord.fromJsonBytes value = .ok record)
      (fun outbox row next hrow ih hnext => ?_)
      (fun key record hnone => by simp [GroupOutbox.new, GroupOutbox.get] at hnone) hload
    obtain ⟨read, hread, hnext⟩ := Except.bind_eq_ok.mp hnext
    cases hnext
    intro key record hget
    rw [GroupOutbox.get_update] at hget
    split at hget
    · cases hget
      exact ⟨row.1, row.2, BTreeMap.mem_toList.mp hrow, Except.mapError_eq_ok.mp hread⟩
    · exact ih key record hget
  exact hall key record hget

/-- Starts keep every deletion one of a stored event. -/
theorem deletionUpkeep_starts (relay : Relay) (limits' : GroupLimitsConfig)
    (base : List StoredEvent) : (deletionUpkeep relay .widest base).Starts relay limits' where
  toWrites := deletionUpkeep_writes relay limits' .widest base
  new := ⟨.new, fun id deletion h => by
    simp [GroupProjection.new, GroupProjection.eventDeletion] at h⟩
  authorized _ := trivial
  dated h := ⟨⟨h.named.group, h.named.member, h.named.role, h.named.tombstone,
    h.named.eventDeletion⟩, h.deletions⟩
  scanned h hitem := h.events _ hitem
  loaded {store checkpoint projection} h hload := by
    refine loadGroupProjection_invariant (P := GroupProjection.DeletesStored .widest base)
      ⟨.new, fun id deletion hnone => by
        simp [GroupProjection.new, GroupProjection.eventDeletion] at hnone⟩
      (fun p p' row hrow hp hread => ⟨hp.named.loadRow hread, fun id deletion hfound => ?_⟩)
      (fun p checkpoint hp => ⟨⟨hp.named.group, hp.named.member, hp.named.role,
        hp.named.tombstone, hp.named.eventDeletion⟩, hp.deletions⟩) hload
    rcases loadProjectionRow_cases hread with ⟨group, _, rfl⟩ | ⟨tombstone, rfl⟩ |
      ⟨read, hvalue, rfl⟩ | ⟨groupId, member, rfl⟩ | ⟨groupId, role, rfl⟩
    · exact hp.deletions id deletion hfound
    · rw [GroupProjection.putTombstone_eq] at hfound
      exact hp.deletions id deletion hfound
    · rw [GroupProjection.putEventDeletion_eq, GroupProjection.eventDeletion,
        Lww.getElem?_put] at hfound
      split at hfound
      · next hid =>
        cases hfound
        rw [← hid.1]
        exact h.rows row.1 row.2 (BTreeMap.mem_toList.mp hrow) _ hvalue
      · exact hp.deletions id deletion hfound
    · rw [GroupProjection.putMember_eq] at hfound
      exact hp.deletions id deletion hfound
    · unfold GroupProjection.putRole at hfound
      dsimp only at hfound
      split at hfound
      · exact hp.deletions id deletion hfound
      · exact hp.deletions id deletion hfound
  loadedRecords h hload hget := by
    obtain ⟨text, value, hrow, hread⟩ := exists_row_of_loadGroupOutbox hload hget
    exact h.records text value hrow _ hread
  eraseRow {store key} h := by
    refine ⟨h.holds, h.events, fun text found hfound deletion hread => ?_, h.records⟩
    dsimp only at hfound
    rw [BTreeMap.getElem?_erase] at hfound
    split at hfound
    · cases hfound
    · exact h.rows text found hfound deletion hread
  putCheckpoint h := ⟨h.holds, h.events, h.rows, h.records⟩

/-! ## Runs -/

/-- Deletions are of stored events of their groups, in the store and in the service. -/
def World.DeletesStored (relay : Relay) : World → Prop
  | .up (some state) store => store.DeletesStored relay store.events ∧
      (deletionUpkeep relay state.limits store.events).Holds relay state.limits state
  | .up none store | .down store => store.DeletesStored relay store.events

/-- The deletions of a store are of events among its own. -/
theorem PocketStore.DeletesStored.grow (h : store.DeletesStored relay base) :
    store.DeletesStored relay store.events where
  holds _ hitem := hitem
  events item hitem groupId target haction :=
    (h.events item hitem groupId target haction).mono h.holds
  rows key value hrow deletion hread := (h.rows key value hrow deletion hread).mono h.holds
  records := h.records

/-- The invariant over some events is one over all that the store has come to hold. -/
theorem deletionUpkeep_grow {limits' : GroupLimitsConfig}
    (h : (deletionUpkeep relay limits base).Holds relay limits' state)
    (hstore : store.DeletesStored relay base) :
    (deletionUpkeep relay limits store.events).Holds relay limits' state where
  projection := ⟨h.projection.named, fun id deletion hfound =>
    (h.projection.deletions id deletion hfound).mono hstore.holds⟩
  records := h.records
  signer := h.signer
  authority := h.authority
  limits := h.limits

/-- An event of no group deletes nothing. -/
theorem deletesStored_of_nonGroup {limits' : GroupLimitsConfig}
    (hclass : classifyGroupEvent event limits' = .ok .nonGroup) :
    Tangle.DeletesStored limits base event := by
  intro groupId target haction
  obtain ⟨hwide, _⟩ := source_of_eventAction haction
  cases (classifyGroupEvent_widest hclass).symm.trans hwide

/-- **Wherever a relay has got to, deletions are of stored events of their groups.** -/
theorem Relay.Reaches.deletesStored (hdb : relay.db.FindsStored)
    {allowed : World → Happening → Prop} {w : World} (hw : relay.Reaches allowed w) :
    w.DeletesStored relay := by
  have hsubmit : ∀ {event groups store} (auth : GroupAuthContext),
      World.DeletesStored relay (.up groups store) →
      WpState relay.db.handle (fun store' => store'.DeletesStored relay store'.events)
        (relay.submit event auth) groups store
        (fun _ groups' store' => World.DeletesStored relay (.up groups' store'))
        fun _ groups' store' => World.DeletesStored relay (.up groups' store') := by
    intro event groups store auth h
    cases groups with
    | none =>
      have hoff :=
        @wp_submit_off relay store event auth (PocketStore.DeletesStored relay store.events)
        h fun hclass hfind hrefuses =>
          (deletionUpkeep_writes relay .default .widest store.events).storeEvent h
            (deletesStored_of_nonGroup hclass) fun hdb => hdb.fresh hfind hrefuses
      have hend : ∀ groups' store', groups' = none ∧ store'.DeletesStored relay store.events →
          World.DeletesStored relay (.up groups' store') := by
        rintro groups' store' ⟨rfl, hstore'⟩
        exact hstore'.grow
      refine ⟨fun store' hmem => (hoff.1 store' hmem).grow, ?_⟩
      exact (hoff.mono (fun _ groups' store' _ => hend groups' store')
        fun _ groups' store' _ => hend groups' store').2
    | some state =>
      have hwrite := @Upkeep.wp_submit _ relay state.limits _ state
        (deletionUpkeep_writes relay state.limits state.limits store.events) store event
          auth h.2 h.1
        deletesStored_of_nonGroup (fun _ _ _ _ => trivial)
        fun _ hclass haccept => deletesStored_of_checkEvent hdb hclass haccept
      have hend : ∀ groups' store', store'.DeletesStored relay store.events →
          (∃ state', groups' = some state' ∧
            (deletionUpkeep relay state.limits store.events).Holds relay state.limits state') →
          World.DeletesStored relay (.up groups' store') := by
        rintro groups' store' hstore' ⟨state', rfl, hholds⟩
        have hlimits := hholds.limits
        rw [← hlimits] at hholds
        exact ⟨hstore'.grow, deletionUpkeep_grow hholds hstore'⟩
      refine ⟨fun store' hmem => (hwrite.1 store' hmem).grow, ?_⟩
      exact (hwrite.mono (fun _ groups' store' => hend groups' store')
        fun _ groups' store' => hend groups' store').2
  refine hw.invariant (I := World.DeletesStored relay) ?_ fun {w happening w'} h _ hstep => ?_
  · refine ⟨fun _ h => h, fun _ h => (nomatch h), fun key value h => ?_, fun key value h => ?_⟩
    · simp [PocketStore.empty] at h
    · simp [PocketStore.empty] at h
  cases hstep with
  | @started config now store store' groups hrun =>
    obtain ⟨hstates, hresult⟩ := @Upkeep.keeps_start _ relay config now
      (deletionUpkeep_starts relay config.limits store.events) store h
    have hend := hstates _ (Prog.run_mem_states _ _)
    unfold exec at hrun
    rw [hrun] at hend hresult
    cases groups with
    | none => exact hend.grow
    | some state =>
      obtain ⟨hholds, seen, hseen, hclassified⟩ := hresult _ rfl state rfl
      have hlimits := hholds.limits
      refine ⟨hend.grow, @deletionUpkeep_grow relay _ state store' store.events _
        ⟨⟨hholds.projection.named, fun id deletion hfound => ?_⟩, hholds.records, hholds.signer,
          trivial, rfl⟩
        hend⟩
      refine (hholds.projection.deletions id deletion hfound).of_widest fun item hitem => ?_
      rw [hlimits]
      exact hclassified item (hseen.holds item hitem)
  | @startStopped config now store store' hmem =>
    have hstore := (@Upkeep.keeps_start _ relay config now
      (deletionUpkeep_starts relay config.limits store.events) store h).1 store' hmem
    exact PocketStore.DeletesStored.grow hstore
  | @submitted event auth groups store result groups' store' _ hrun =>
    have hend := (hsubmit auth h).exec hrun
    cases result with
    | ok write => exact hend
    | error error => exact hend
  | submitStopped _ hmem => exact (hsubmit _ h).1 _ hmem
  | @stopped groups store =>
    cases groups with
    | none => exact h
    | some state => exact h.1

/-! ## What a deletion changes -/

/-- The projections agree on other groups and on the deletions of other events. -/
structure AgreesOutside (groupId : GroupId) (targets : EventId → Prop) (p q : GroupProjection) :
    Prop where
  group : ∀ other, other ≠ groupId → q.group other = p.group other
  member : ∀ other pubkey, other ≠ groupId → q.member other pubkey = p.member other pubkey
  tombstone : ∀ other, other ≠ groupId → q.tombstone other = p.tombstone other
  eventDeletion : ∀ id, ¬targets id → q.eventDeletion id = p.eventDeletion id

/-- The event is of no other group and deletes no other event. -/
structure ActsWithin (groupId : GroupId) (targets : EventId → Prop) (event : PocketEvent) :
    Prop where
  group : ∀ limits eventClass other, classifyGroupEvent event limits = .ok eventClass →
    eventClass.groupId = some other → other = groupId
  deletes : ∀ limits other target, eventAction event limits = .ok (.deleteEvent other target) →
    targets target

section
variable {targets : EventId → Prop} {p q q' : GroupProjection} {item : StoredEvent}

/-- An event that acts within the group changes nothing outside. -/
theorem AgreesOutside.applyItem (h : AgreesOutside groupId targets p q)
    (hitem : ActsWithin groupId targets item.event)
    (happly : applyItem limits q item = .ok q') : AgreesOutside groupId targets p q' where
  group other hne := by
    refine (group_applyItem_of_not happly fun ⟨eventClass, hclass, hgroup⟩ => ?_).trans
      (h.group other hne)
    exact hne (hitem.group _ _ _ hclass hgroup)
  member other pubkey hne := by
    rcases @member_applyItem limits other pubkey _ _ _ happly with
      ⟨status, roles, haction, _⟩ | ⟨_, hsame⟩
    · obtain ⟨eventClass, hclass, hgroup⟩ : OfGroup limits other item := by
        cases status with
        | member => exact ⟨_, (source_of_eventAction haction).1, rfl⟩
        | removed => exact ⟨_, (source_of_eventAction haction).1, rfl⟩
      exact absurd (hitem.group _ _ _ hclass hgroup) hne
    · exact hsame.trans (h.member other pubkey hne)
  tombstone other hne := by
    have hput := tombstoneField.applyItem happly
    rw [← h.tombstone other hne]
    change (tombstoneField.get q')[other]? = (tombstoneField.get q)[other]?
    rw [hput]
    cases hwrite : tombstoneField.write limits item with
    | none => rfl
    | some write =>
      have hgroup := (source_of_eventAction (tombstoneField_write hwrite).1).1
      rw [Option.elim_some, Lww.getElem?_put, if_neg fun heq => ?_]
      exact hne (heq.1 ▸ hitem.group _ _ _ hgroup rfl)
  eventDeletion id hnot := by
    have hput := deletionField.applyItem happly
    rw [← h.eventDeletion id hnot]
    change (deletionField.get q')[id]? = (deletionField.get q)[id]?
    rw [hput]
    cases hwrite : deletionField.write limits item with
    | none => rfl
    | some write =>
      obtain ⟨other, haction, _⟩ := deletionField_write hwrite
      rw [Option.elim_some, Lww.getElem?_put, if_neg fun heq => ?_]
      exact hnot (heq.1 ▸ hitem.deletes _ _ _ haction)

/-- The gate decides alike on an event of another group that is not among the targets. -/
theorem AgreesOutside.screenEvent (h : AgreesOutside groupId targets p q)
    {authority : GroupAuthority} {reader : Option PublicKeyHex} (hid : ¬targets event.id)
    (hnot : ∀ eventClass, classifyGroupEvent event limits = .ok eventClass →
      eventClass.groupId ≠ some groupId) :
    GroupReadGate.screenEvent ⟨q, authority⟩ event reader limits =
      GroupReadGate.screenEvent ⟨p, authority⟩ event reader limits := by
  have hread : ∀ other, other ≠ groupId → GroupReadGate.canReadGroup ⟨q, authority⟩ other reader =
      GroupReadGate.canReadGroup ⟨p, authority⟩ other reader := by
    intro other hne
    simp only [GroupReadGate.canReadGroup, h.member other _ hne]
  have hnormal : ∀ other, other ≠ groupId →
      GroupReadGate.screenNormalEvent ⟨q, authority⟩ other reader =
        GroupReadGate.screenNormalEvent ⟨p, authority⟩ other reader := by
    intro other hne
    simp only [GroupReadGate.screenNormalEvent, h.group other hne, h.tombstone other hne,
      hread other hne]
  have hmarker : ∀ eventId other, other ≠ groupId →
      GroupReadGate.screenDeleteGroupMarker ⟨q, authority⟩ eventId other reader =
        GroupReadGate.screenDeleteGroupMarker ⟨p, authority⟩ eventId other reader := by
    intro eventId other hne
    simp only [GroupReadGate.screenDeleteGroupMarker, h.group other hne, h.tombstone other hne,
      hread other hne, hnormal other hne]
  have hsnapshot : ∀ kind other, other ≠ groupId →
      GroupReadGate.screenSnapshotEvent ⟨q, authority⟩ kind other reader =
        GroupReadGate.screenSnapshotEvent ⟨p, authority⟩ kind other reader := by
    intro kind other hne
    simp only [GroupReadGate.screenSnapshotEvent, h.group other hne, h.tombstone other hne,
      hread other hne]
  unfold GroupReadGate.screenEvent
  simp only [GroupEventView.id_eq, Except.ok_bind, h.eventDeletion event.id hid]
  split
  · rfl
  · cases hclass : classifyGroupEvent event limits with
    | error e => rfl
    | ok eventClass =>
      have hne : ∀ other, eventClass.groupId = some other → other ≠ groupId :=
        fun other hgroup heq => hnot eventClass hclass (heq ▸ hgroup)
      cases eventClass with
      | nonGroup => rfl
      | normal other => simp only [Except.ok_bind, hnormal other (hne other rfl)]
      | moderation kind other =>
        simp only [Except.ok_bind, hmarker _ other (hne other rfl), hnormal other (hne other rfl)]
      | relayGeneratedSnapshot kind other =>
        simp only [Except.ok_bind, hsnapshot _ other (hne other rfl)]

end

/-- That nothing outside changes, part by part. -/
def outsideUpkeep (relay : Relay) (before : GroupServiceState) (groupId : GroupId)
    (targets : EventId → Prop) : Upkeep where
  store _ := True
  event := ActsWithin groupId targets
  projection projection :=
    projection.Named ∧ AgreesOutside groupId targets before.projection projection
  record record := ∃ event, PlannedFor relay.pocket event record
  authority authority := authority = before.authority

/-- A generated event is of the group of its record. -/
theorem group_of_generatedRecord {record : GroupOutboxRecord} {source : PocketEvent}
    {builder : GroupGeneratedEventBuilder} {eventClass : GroupEventClass}
    (hplanned : PlannedFor relay.pocket source record)
    (hkey : relay.pocket.publicKey builder.signer.secret = .ok builder.signer.publicKey)
    (hsign : builder.signPayloadPocket relay.pocket record.payload = .ok event)
    (hclass : classifyGroupEvent event limits = .ok eventClass)
    (hgroup : eventClass.groupId = some groupId) : groupId = record.key.groupId := by
  obtain ⟨_, _, projection, _, _, _, records, hnamed, _, hplan, planned, hmem, hkeys, hpayload⟩ :=
    hplanned
  have htags := (event_of_sign relay.lawful hkey hsign).2.2.2
  have hnames := (owed_of_plan hplan hmem).namesGroup fun hgroup => hnamed.group hgroup
  rw [hpayload, hkeys] at hnames
  exact hnames.groupId_of_class htags hclass hgroup

/-- A write of the group that only generates events of the group keeps what lies outside. -/
theorem outsideUpkeep_writes (relay : Relay) (before : GroupServiceState)
    (limits : GroupLimitsConfig) (groupId : GroupId) (targets : EventId → Prop) :
    (outsideUpkeep relay before groupId targets).Writes relay limits
      fun record => record.key.groupId = groupId where
  taken h hitem happly := ⟨h.1.applyItem happly, h.2.applyItem hitem happly⟩
  planned h _ hclass hplan := plannedFor_of_plan h.1 hclass hplan
  marked := fun ⟨event, hplanned⟩ hkey hpayload => ⟨event, hplanned.congr hkey hpayload⟩
  generated := fun ⟨_, hplanned⟩ hturn hkey hsign =>
    { group := fun _ _ _ hclass hgroup =>
        (group_of_generatedRecord hplanned hkey hsign hclass hgroup).trans hturn
      deletes := fun _ _ _ haction =>
        absurd haction (not_deleteEvent_of_generated hplanned hkey hsign) }
  storeEvent _ _ _ := trivial
  putRow _ _ _ := trivial
  putRecord _ _ := trivial

/-- **Deletions of events stay inside their group.** Wherever a relay has got to, the target of
every deletion that the projection holds is stored and is of the deletion's group. Submitting a
deletion of a group, whatever becomes of it, changes no decision of the read gate on an event that
is not of the group. And the target that is checked is the one that the projection records. -/
theorem eventDeletions_stayInGroup (hdb : relay.db.FindsStored)
    (hreach : relay.Reachable (.up (some state) store)) :
    (∀ id deletion, state.projection.eventDeletion id = some deletion →
      StoredIn state.limits store.events deletion.groupId id) ∧
    (∀ event groupId auth result groups' store',
      Moderates state.limits event kindGroupDeleteEvent groupId →
      execState relay.db.handle (relay.submit event auth) (some state) store =
        (result, groups', store') →
      ∃ state', groups' = some state' ∧ ∀ (other : PocketEvent) reader,
        (∀ item ∈ store.events, item.event.id = other.id → item.event = other) →
        (∀ eventClass, classifyGroupEvent other state.limits = .ok eventClass →
          eventClass.groupId ≠ some groupId) →
        state'.readGate.screenEvent other reader state'.limits =
          state.readGate.screenEvent other reader state.limits) ∧
    ∀ event groupId eventClass, validateClientGroupEventStructure event state.limits =
        .ok eventClass → Moderates state.limits event kindGroupDeleteEvent groupId →
      (exec relay.db.handle (state.checkDeleteEventTarget event groupId) store).1 = .ok () →
      ∃ target, deleteTargetEventId event = .ok target ∧ ∀ (projection : GroupProjection) offset,
        ∃ outcome, projection.applyCanonicalEvent event offset state.limits =
          .ok (outcome, projection.putEventDeletion ⟨groupId, target, event.id, event.createdAt,
            event.pubkey, (⟨event, offset⟩ : StoredEvent).tuple⟩) := by
  obtain ⟨hstore, hholds⟩ := hreach.deletesStored hdb
  refine ⟨hholds.projection.deletions,
    fun event groupId auth result groups' store' hmoderates hrun =>
    ?_, fun event groupId eventClass _ hmoderates hcheck => ?_⟩
  · -- the targets are those that the check has found
    let targets (id : EventId) : Prop := deleteTargetEventId event = .ok id ∧
      StoredIn state.limits store.events groupId id
    have hclassOf : ∀ limits eventClass, classifyGroupEvent event limits = .ok eventClass →
        eventClass = .moderation (eventKind event) groupId := fun limits eventClass hclass =>
      Except.ok.inj ((classifyGroupEvent_widest hclass).symm.trans
        (classifyGroupEvent_widest hmoderates.1))
    have hvalue : (eventKind event).value = kindGroupDeleteEvent :=
      (eventKind_value event).trans hmoderates.2
    have hstate : (outsideUpkeep relay state groupId targets).Holds relay state.limits state :=
      ⟨⟨hholds.projection.named, fun _ _ => rfl, fun _ _ _ => rfl, fun _ _ => rfl, fun _ _ => rfl⟩,
        hholds.records, hholds.signer, rfl, rfl⟩
    have hwrite := @Upkeep.wp_submit _ relay state.limits _ state
      (outsideUpkeep_writes relay state state.limits groupId targets) store event auth
        hstate trivial
      (fun hclass => nomatch hclassOf _ _ hclass)
      (fun eventClass record hclass hgroup => ?_)
      fun eventClass hclass haccept => ⟨fun limits found other hfound hgroup => ?_,
        fun limits other target haction => ?_⟩
    · have hend := hwrite.exec hrun
      obtain ⟨state', hgroups, hkept⟩ : ∃ state', groups' = some state' ∧
          (outsideUpkeep relay state groupId targets).Holds relay state.limits state' := by
        cases result with
        | ok write => exact hend
        | error error => exact hend
      refine ⟨state', hgroups, fun other reader hunique hnot => ?_⟩
      have hagrees := hkept.projection.2
      have hauthority : state'.authority = state.authority := hkept.authority
      rw [GroupServiceState.readGate, GroupServiceState.readGate, hkept.limits, hauthority]
      refine hagrees.screenEvent (fun ⟨_, item, hitem, hid, found, hclass, hgroup⟩ => ?_) hnot
      rw [hunique item hitem hid] at hclass
      exact hnot found hclass hgroup
    · cases hclassOf _ _ hclass
      exact (Option.some.inj hgroup).symm
    · cases hclassOf _ _ hfound
      exact (Option.some.inj hgroup).symm
    · cases hclassOf _ _ hclass
      obtain ⟨found, hfound, hstored⟩ :=
        storedIn_of_checkDelete hdb (checkDelete_of_checkEvent hvalue haccept)
      cases (deletionTarget_of_deleteTarget hfound).symm.trans
        (deletionTarget_of_eventAction haction)
      exact ⟨hfound, hstored⟩
  · obtain ⟨target, _, _, htarget, _⟩ := target_of_checkDelete hcheck
    refine ⟨target, htarget, fun projection offset => ?_⟩
    have haction : eventAction event state.limits = .ok (.deleteEvent groupId target) := by
      rw [eventAction, hmoderates.1, Except.ok_bind]
      simp only [classAction, moderationAction, hmoderates.2,
        deletionTarget_of_deleteTarget htarget, Except.functor_map_ok]
    have happly : applyItem state.limits projection ⟨event, offset⟩ = .ok
        ((ProjectionAction.deleteEvent groupId target).after ⟨event, offset⟩ projection) :=
      applyItem_eq_ok.mpr ⟨_, haction, rfl, rfl⟩
    obtain ⟨result, hresult, hprojection⟩ := Except.map_eq_ok.mp happly
    refine ⟨result.1, hresult.trans (congrArg _ (Prod.ext rfl ?_))⟩
    rw [GroupProjection.putEventDeletion_eq]
    exact hprojection

end

/-! ## A deletion and a restart -/

namespace Sample

/-- A note in the group. -/
def fieldNote : PocketEvent :=
  farmEvent owner 11 20 []

/-- The group is made, the note is stored and deleted, and the relay is restarted. -/
def noteDeleted : List ScriptLine :=
  [.start config 100, .submit (farmEvent owner 9007 10 []) (authAs owner),
    .submit fieldNote (authAs owner),
    .submit (farmEvent owner 9005 30 [["e", fieldNote.id.text.toMessage]]) (authAs owner),
    .stop, .start config 200]

end Sample

section
open Sample

/-- The group's owner deletes a note of the group, and the relay is restarted: the deletion is
there, and its target is stored in the group. -/
theorem eventDeletions_stayInGroup_note : ∃ state store deletion,
    relay.Reachable (.up (some state) store) ∧
      state.projection.eventDeletion fieldNote.id = some deletion ∧
      StoredIn state.limits store.events deletion.groupId fieldNote.id := by
  have hscript : relay.ScriptEnds (fun _ _ => true) noteDeleted fun state _ =>
      (state.projection.eventDeletion fieldNote.id).isSome = true := by
    decide +kernel
  obtain ⟨state, store, hreach, hsome⟩ := hscript.reaches
  obtain ⟨deletion, hdeletion⟩ := Option.isSome_iff_exists.mp hsome
  have hreach := hreach.mono fun _ _ _ => trivial
  have hstays := eventDeletions_stayInGroup plainDb_findsStored hreach
  exact ⟨state, store, deletion, hreach, hdeletion, hstays.1 _ _ hdeletion⟩

end

end Tangle
