import Tangle.Runtime.EventDeletions

/-!
# Rows that are read back

A row is read back as the entry it was written for when the id of its group is short enough to be
read. Taking an event changes entries of the event's group only (`entry_applyItem`), so as long as
every submitted event is of a group with a short id every row that is written, at whatever point of
a write or a start, is one that is read back (`readableUpkeep_starts`).
-/

namespace Tangle

open GroupEventView

variable {relay : Relay} {limits : GroupLimitsConfig} {state : GroupServiceState}
  {store : PocketStore} {projection projection' : GroupProjection} {item : StoredEvent}

/-! ## Entries and their groups -/

/-- A group that is there stays there. -/
theorem group_applyItem_isSome (happly : applyItem limits projection item = .ok projection')
    {groupId : GroupId} (h : (projection.group groupId).isSome = true) :
    (projection'.group groupId).isSome = true := by
  obtain ⟨action, _, _, rfl⟩ := applyItem_eq_ok.mp happly
  obtain ⟨group, hgroup⟩ := Option.isSome_iff_exists.mp h
  have hafter : (action.after item projection).group groupId =
      action.groupAfter item groupId (projection.group groupId) :=
    ProjectionAction.getElem?_groupsAfter
  rw [hafter, hgroup]
  cases action with
  | editMetadata target read =>
    cases read with
    | ok metadata => simp only [ProjectionAction.groupAfter]; split <;> rfl
    | error e => rfl
  | createGroup target metadata => simp only [ProjectionAction.groupAfter]; split <;> rfl
  | deleteGroup target => simp only [ProjectionAction.groupAfter]; split <;> rfl
  | metadataSnapshot target kind metadata =>
    simp only [ProjectionAction.groupAfter]; split <;> rfl
  | otherSnapshot target kind => simp only [ProjectionAction.groupAfter]; split <;> rfl
  | _ => rfl

/-- An entry is as it was before the event, or it is there and of the event's group. -/
theorem entry_applyItem (happly : applyItem limits projection item = .ok projection')
    (key : ProjectionKey) :
    (projection'.row key = projection.row key ∧ projection'.groupOf key = projection.groupOf key) ∨
      ∃ value groupId, projection'.row key = some value ∧ projection'.groupOf key = some groupId ∧
        OfGroup limits groupId item := by
  cases key with
  | group groupId =>
    cases hafter : projection'.group groupId with
    | none =>
      have hbefore : projection.group groupId = none := by
        refine Option.not_isSome_iff_eq_none.mp fun hsome => ?_
        have hstays := group_applyItem_isSome happly hsome
        rw [hafter] at hstays
        cases hstays
      exact .inl ⟨by simp only [GroupProjection.row, hafter, hbefore], rfl⟩
    | some group =>
      by_cases hgroup : OfGroup limits groupId item
      · exact .inr ⟨_, groupId, congrArg (Option.map _) hafter, rfl, hgroup⟩
      · refine .inl ⟨?_, rfl⟩
        simp only [GroupProjection.row, group_applyItem_of_not happly hgroup]
  | member groupId pubkey =>
    rcases @member_applyItem limits groupId pubkey _ _ _ happly with
      ⟨status, roles, haction, _, hafter⟩ | ⟨_, hsame⟩
    · refine .inr ⟨_, groupId, congrArg (Option.map _) hafter, rfl, ?_⟩
      cases status with
      | member => exact ⟨_, (source_of_eventAction haction).1, rfl⟩
      | removed => exact ⟨_, (source_of_eventAction haction).1, rfl⟩
    · exact .inl ⟨by simp only [GroupProjection.row, hsame], rfl⟩
  | role groupId roleName =>
    obtain ⟨action, _, _, rfl⟩ := applyItem_eq_ok.mp happly
    exact .inl ⟨rfl, rfl⟩
  | tombstone groupId =>
    have hlookup : projection'.tombstone groupId =
        (tombstoneField.get projection')[groupId]? := rfl
    have hsame : projection'.tombstone groupId = projection.tombstone groupId →
        projection'.row (.tombstone groupId) = projection.row (.tombstone groupId) := by
      intro h
      simp only [GroupProjection.row, h]
    rw [tombstoneField.applyItem happly] at hlookup
    cases hwrite : tombstoneField.write limits item with
    | none =>
      rw [hwrite] at hlookup
      exact .inl ⟨hsame hlookup, rfl⟩
    | some write =>
      rw [hwrite, Option.elim_some, Lww.getElem?_put] at hlookup
      split at hlookup
      · next hkey =>
        have hclass := (source_of_eventAction (tombstoneField_write hwrite).1).1
        exact .inr ⟨_, groupId, congrArg (Option.map _) hlookup, rfl, _, hclass,
          congrArg some hkey.1⟩
      · exact .inl ⟨hsame hlookup, rfl⟩
  | eventDeletion eventId =>
    have hlookup : projection'.eventDeletion eventId =
        (deletionField.get projection')[eventId]? := rfl
    have hsame : projection'.eventDeletion eventId = projection.eventDeletion eventId →
        projection'.row (.eventDeletion eventId) = projection.row (.eventDeletion eventId) ∧
          projection'.groupOf (.eventDeletion eventId) =
            projection.groupOf (.eventDeletion eventId) := by
      intro h
      simp only [GroupProjection.row, GroupProjection.groupOf, h, and_self]
    rw [deletionField.applyItem happly] at hlookup
    cases hwrite : deletionField.write limits item with
    | none =>
      rw [hwrite] at hlookup
      exact .inl (hsame hlookup)
    | some write =>
      rw [hwrite, Option.elim_some, Lww.getElem?_put] at hlookup
      split at hlookup
      · obtain ⟨groupId, haction, hvalue⟩ := deletionField_write hwrite
        refine .inr ⟨_, groupId, congrArg (Option.map _) hlookup, ?_, _,
          (source_of_eventAction haction).1, rfl⟩
        rw [GroupProjection.groupOf, hlookup, hvalue]
        rfl
      · exact .inl (hsame hlookup)

/-- The id of the event's group, if it is of one, is short enough to be read back. -/
def PocketEvent.ShortGroupId (event : PocketEvent) : Prop :=
  ∀ eventClass groupId, classifyGroupEvent event .widest = .ok eventClass →
    eventClass.groupId = some groupId → groupId.text.byteLen ≤ maxGroupIdBytes

instance (event : PocketEvent) : Decidable event.ShortGroupId :=
  decidable_of_iff
    (((classifyGroupEvent event .widest).toOption.bind GroupEventClass.groupId).all
      (fun groupId => decide (groupId.text.byteLen ≤ maxGroupIdBytes)) = true) <| by
    unfold PocketEvent.ShortGroupId
    cases classifyGroupEvent event .widest with
    | error e => simp [Except.toOption]
    | ok eventClass =>
      refine ⟨fun h found groupId hfound hgroup => ?_, fun h => ?_⟩
      · cases hfound
        simpa [Except.toOption, hgroup] using h
      · cases hgroup : eventClass.groupId with
        | none => simp [Except.toOption, hgroup]
        | some groupId => simpa [Except.toOption, hgroup] using h eventClass groupId rfl hgroup

/-- The row is read back as an entry of the key's name. -/
def ProjectionKey.ReadsBack (value : ExtraValue) : ProjectionKey → Prop
  | .group groupId => ∃ group, GroupState.fromJsonBytes value = .ok group ∧ group.id = groupId
  | .member groupId pubkey => ∃ member, MemberState.fromJsonBytes value = .ok member ∧
      member.pubkey = pubkey ∧ groupId.text.byteLen ≤ maxGroupIdBytes
  | .role groupId roleName => ∃ role, ProjectedRoleDefinition.fromJsonBytes value = .ok role ∧
      role.definition.name = roleName ∧ groupId.text.byteLen ≤ maxGroupIdBytes
  | .tombstone groupId =>
    ∃ tombstone, GroupTombstone.fromJsonBytes value = .ok tombstone ∧ tombstone.groupId = groupId
  | .eventDeletion eventId => ∃ deletion, GroupEventDeletion.fromJsonBytes value = .ok deletion ∧
      deletion.targetEventId = eventId

namespace GroupProjection

/-- Every row of the projection is read back. -/
def Readable (projection : GroupProjection) : Prop :=
  ∀ key value, projection.row key = some value → key.ReadsBack value

theorem Readable.of_named (hnamed : projection.Named) (hshort : projection.ShortIds) :
    projection.Readable := by
  intro key value hrow
  cases key with
  | group groupId =>
    obtain ⟨group, hgroup, rfl⟩ := Option.map_eq_some_iff.mp hrow
    have hid : group.id = groupId := hnamed.group hgroup
    exact ⟨group, GroupState.fromJsonBytes_toJsonBytes (hid ▸ hshort _ _ groupId hrow rfl), hid⟩
  | member groupId pubkey =>
    obtain ⟨member, hmember, rfl⟩ := Option.map_eq_some_iff.mp hrow
    exact ⟨member, MemberState.fromJsonBytes_toJsonBytes member, hnamed.member hmember,
      hshort _ _ groupId hrow rfl⟩
  | role groupId roleName =>
    obtain ⟨role, hrole, rfl⟩ := Option.map_eq_some_iff.mp hrow
    exact ⟨role, ProjectedRoleDefinition.fromJsonBytes_toJsonBytes role, hnamed.role hrole,
      hshort _ _ groupId hrow rfl⟩
  | tombstone groupId =>
    obtain ⟨tombstone, htombstone, rfl⟩ := Option.map_eq_some_iff.mp hrow
    have hid : tombstone.groupId = groupId := hnamed.tombstone htombstone
    exact ⟨tombstone,
      GroupTombstone.fromJsonBytes_toJsonBytes (hid ▸ hshort _ _ groupId hrow rfl), hid⟩
  | eventDeletion eventId =>
    obtain ⟨deletion, hdeletion, rfl⟩ := Option.map_eq_some_iff.mp hrow
    have hgroup : projection.groupOf (.eventDeletion eventId) = some deletion.groupId := by
      rw [groupOf, hdeletion]
      rfl
    exact ⟨deletion, GroupEventDeletion.fromJsonBytes_toJsonBytes (hshort _ _ _ hrow hgroup),
      hnamed.eventDeletion hdeletion⟩

theorem Readable.named (h : projection.Readable) : projection.Named where
  group {groupId group} hgroup := by
    obtain ⟨read, hread, rfl⟩ := h (.group groupId) _ (congrArg (Option.map _) hgroup)
    rw [(GroupState.fromJsonBytes_toJsonBytes_eq_ok.mp hread).1]
  member {groupId pubkey member} hmember := by
    obtain ⟨read, hread, rfl, _⟩ := h (.member groupId pubkey) _ (congrArg (Option.map _) hmember)
    rw [Except.ok.inj ((MemberState.fromJsonBytes_toJsonBytes member).symm.trans hread)]
  role {groupId roleName role} hrole := by
    obtain ⟨read, hread, rfl, _⟩ := h (.role groupId roleName) _ (congrArg (Option.map _) hrole)
    rw [Except.ok.inj ((ProjectedRoleDefinition.fromJsonBytes_toJsonBytes role).symm.trans hread)]
  tombstone {groupId tombstone} htombstone := by
    obtain ⟨read, hread, rfl⟩ := h (.tombstone groupId) _ (congrArg (Option.map _) htombstone)
    rw [(GroupTombstone.fromJsonBytes_toJsonBytes_eq_ok.mp hread).1]
  eventDeletion {eventId deletion} hdeletion := by
    obtain ⟨read, hread, rfl⟩ := h (.eventDeletion eventId) _ (congrArg (Option.map _) hdeletion)
    rw [(GroupEventDeletion.fromJsonBytes_toJsonBytes_eq_ok.mp hread).1]

theorem Readable.shortIds (h : projection.Readable) : projection.ShortIds := by
  intro key value groupId hrow hgroup
  cases key with
  | group id =>
    obtain ⟨group, _, rfl⟩ := Option.map_eq_some_iff.mp hrow
    obtain ⟨read, hread, rfl⟩ := h _ _ hrow
    obtain ⟨rfl, hshort⟩ := GroupState.fromJsonBytes_toJsonBytes_eq_ok.mp hread
    cases hgroup
    exact hshort
  | member id pubkey =>
    cases hgroup
    obtain ⟨_, _, _, hshort⟩ := h _ _ hrow
    exact hshort
  | role id roleName =>
    cases hgroup
    obtain ⟨_, _, _, hshort⟩ := h _ _ hrow
    exact hshort
  | tombstone id =>
    obtain ⟨tombstone, _, rfl⟩ := Option.map_eq_some_iff.mp hrow
    obtain ⟨read, hread, rfl⟩ := h _ _ hrow
    obtain ⟨rfl, hshort⟩ := GroupTombstone.fromJsonBytes_toJsonBytes_eq_ok.mp hread
    cases hgroup
    exact hshort
  | eventDeletion id =>
    obtain ⟨deletion, hdeletion, rfl⟩ := Option.map_eq_some_iff.mp hrow
    obtain ⟨read, hread, _⟩ := h _ _ hrow
    rw [groupOf, hdeletion] at hgroup
    cases hgroup
    exact (GroupEventDeletion.fromJsonBytes_toJsonBytes_eq_ok.mp hread).2

theorem Readable.new : GroupProjection.new.Readable := by
  intro key value hrow
  cases key <;> simp [row, GroupProjection.new, group, member, tombstone, eventDeletion] at hrow

/-- Taking an event of a group with a short id. -/
theorem Readable.applyItem (h : projection.Readable) (hitem : item.event.ShortGroupId)
    (happly : applyItem limits projection item = .ok projection') : projection'.Readable := by
  refine .of_named (h.named.applyItem happly) fun key value groupId hrow hgroup => ?_
  rcases entry_applyItem happly key with ⟨hsame, hsameGroup⟩ | ⟨_, found, _, hfound, hof⟩
  · exact h.shortIds key value groupId (hsame ▸ hrow) (hsameGroup ▸ hgroup)
  · cases hfound.symm.trans hgroup
    obtain ⟨eventClass, hclass, hclassGroup⟩ := hof
    exact hitem eventClass groupId (classifyGroupEvent_widest hclass) hclassGroup

/-- The projection without one entry. -/
def drop (held : GroupProjection) : ProjectionKey → GroupProjection
  | .group groupId => { held with groups := held.groups.erase groupId }
  | .member groupId pubkey => { held with members := held.members.erase (toLex (groupId, pubkey)) }
  | .role groupId roleName => { held with roles := held.roles.erase (toLex (groupId, roleName)) }
  | .tombstone groupId => { held with tombstones := held.tombstones.erase groupId }
  | .eventDeletion eventId => { held with eventDeletions := held.eventDeletions.erase eventId }

/-- The row of the entry is gone with it. -/
theorem row_drop (held : GroupProjection) (key : ProjectionKey) :
    (held.drop key).row = Function.update held.row key none := by
  funext other
  rw [Function.update_apply]
  cases key with
  | group groupId =>
    cases other with
    | group other =>
      simp only [row, drop, group, BTreeMap.getElem?_erase, ProjectionKey.group.injEq,
        eq_comm (a := other)]
      split <;> rfl
    | _ => rfl
  | member groupId pubkey =>
    cases other with
    | member other key =>
      simp only [row, drop, member, BTreeMap.getElem?_erase, ProjectionKey.member.injEq,
        EmbeddingLike.apply_eq_iff_eq, Prod.mk.injEq, eq_comm (a := other), eq_comm (a := key)]
      split <;> rfl
    | _ => rfl
  | role groupId roleName =>
    cases other with
    | role other name =>
      simp only [row, drop, BTreeMap.getElem?_erase, ProjectionKey.role.injEq,
        EmbeddingLike.apply_eq_iff_eq, Prod.mk.injEq, eq_comm (a := other), eq_comm (a := name)]
      split <;> rfl
    | _ => rfl
  | tombstone groupId =>
    cases other with
    | tombstone other =>
      simp only [row, drop, tombstone, BTreeMap.getElem?_erase, ProjectionKey.tombstone.injEq,
        eq_comm (a := other)]
      split <;> rfl
    | _ => rfl
  | eventDeletion eventId =>
    cases other with
    | eventDeletion other =>
      simp only [row, drop, eventDeletion, BTreeMap.getElem?_erase,
        ProjectionKey.eventDeletion.injEq, eq_comm (a := other)]
      split <;> rfl
    | _ => rfl

end GroupProjection

/-- The record was planned, and its row is read back. -/
structure GroupOutboxRecord.Readable (relay : Relay) (record : GroupOutboxRecord) : Prop where
  planned : ∃ event, PlannedFor relay.pocket event record
  short : record.key.groupId.text.byteLen ≤ maxGroupIdBytes

/-- The rows of the tables are read back as the entries and the records they were written for. -/
structure PocketStore.Readable (relay : Relay) (store : PocketStore) : Prop where
  events : ∀ item ∈ store.events, item.event.ShortGroupId
  rows : ∃ held : GroupProjection, held.Readable ∧ HoldsRows held.row store.projection
  records : ∃ outbox : GroupOutbox, HoldsRecords outbox store.outbox ∧
    ∀ key record, outbox.get key = some record → record.Readable relay

theorem PocketStore.Readable.empty : PocketStore.empty.Readable relay where
  events _ h := nomatch h
  rows := by
    refine ⟨.new, .new, HoldsRows.empty.congr fun key => ?_⟩
    cases key <;> simp [GroupProjection.row, GroupProjection.new, GroupProjection.group,
      GroupProjection.member, GroupProjection.tombstone, GroupProjection.eventDeletion]
  records := ⟨.new, .empty, fun key record h => by simp [GroupOutbox.new, GroupOutbox.get] at h⟩

/-- What is read back, part by part. -/
def readableUpkeep (relay : Relay) : Upkeep where
  store := PocketStore.Readable relay
  event := PocketEvent.ShortGroupId
  projection := GroupProjection.Readable
  record := GroupOutboxRecord.Readable relay
  authority _ := True

/-- Erasing a row takes away the entry it was written for. -/
theorem HoldsRows.erase_text {held : GroupProjection} {rows : BTreeMap Text ExtraValue}
    (h : HoldsRows held.row rows) (hheld : held.Readable) (text : Text) :
    ∃ held' : GroupProjection, held'.Readable ∧ HoldsRows held'.row (rows.erase text) := by
  cases hfound : rows[text]? with
  | none =>
    have hsame : rows.erase text = rows := by
      refine BTreeMap.ext fun other => ?_
      rw [BTreeMap.getElem?_erase]
      split
      · next heq => exact (heq ▸ hfound).symm
      · rfl
    refine ⟨held, hheld, ?_⟩
    rw [hsame]
    exact h
  | some value =>
    obtain ⟨key, rfl⟩ := h.named text value hfound
    refine ⟨held.drop key, fun other found hrow => ?_, ?_⟩
    · rw [GroupProjection.row_drop, Function.update_apply] at hrow
      split at hrow
      · cases hrow
      · exact hheld other found hrow
    · rw [GroupProjection.row_drop]
      exact h.erase key

/-- Whatever the limits, writes and starts keep the rows readable. -/
theorem readableUpkeep_starts (relay : Relay) (limits : GroupLimitsConfig) :
    (readableUpkeep relay).Starts relay limits where
  taken h hitem happly := h.applyItem hitem happly
  planned h hevent hclass hplan record hrecord := by
    refine ⟨plannedFor_of_plan h.named hclass hplan record hrecord, ?_⟩
    exact hevent _ _ (classifyGroupEvent_widest hclass) (owed_of_plan hplan hrecord).key.2
  marked h hkey hpayload := by
    obtain ⟨⟨event, hplanned⟩, hshort⟩ := h
    exact ⟨⟨event, hplanned.congr hkey hpayload⟩, hkey ▸ hshort⟩
  generated h _ hkey hsign eventClass groupId hclass hgroup := by
    obtain ⟨⟨source, hplanned⟩, hshort⟩ := h
    exact group_of_generatedRecord hplanned hkey hsign hclass hgroup ▸ hshort
  storeEvent {store event offset} h hevent _ := by
    refine ⟨fun item hitem => ?_, h.rows, h.records⟩
    rcases List.mem_append.mp hitem with hitem | hitem
    · exact h.events item hitem
    · exact List.mem_singleton.mp hitem ▸ hevent
  putRow {store projection key value} h hprojection hrow := by
    obtain ⟨held, hheld, hrows⟩ := h.rows
    refine ⟨h.events, ⟨held.patch projection key, fun other found hfound => ?_, ?_⟩, h.records⟩
    · rw [GroupProjection.row_patch hrow, Function.update_apply] at hfound
      split at hfound
      · next heq =>
        cases hfound
        exact heq ▸ hprojection key value hrow
      · exact hheld other found hfound
    · rw [GroupProjection.row_patch hrow]
      exact hrows.insert key value
  putRecord {store record} h hrecord := by
    obtain ⟨outbox, hrows, hrecords⟩ := h.records
    refine ⟨h.events, h.rows, outbox.update record, hrows.update record, fun key found hfound => ?_⟩
    rw [GroupOutbox.get_update] at hfound
    split at hfound
    · cases hfound
      exact hrecord
    · exact hrecords key found hfound
  new := .new
  authorized _ := trivial
  dated {projection checkpoint} h key value hrow := by
    rw [GroupProjection.setCheckpoint, GroupProjection.row_withCheckpoint] at hrow
    exact h key value hrow
  scanned h hitem := h.events _ hitem
  loaded {store checkpoint projection} h hload := by
    obtain ⟨held, hheld, hrows⟩ := h.rows
    rw [load_of_holdsRows hheld.named hrows hload]
    intro key value hrow
    rw [GroupProjection.row_withCheckpoint] at hrow
    exact hheld key value hrow
  loadedRecords {store outbox key record} h hload hget := by
    obtain ⟨held, hrows, hrecords⟩ := h.records
    exact hrecords key record (load_of_holdsRecords hrows hload ▸ hget)
  eraseRow {store key} h := by
    obtain ⟨held, hheld, hrows⟩ := h.rows
    exact ⟨h.events, hrows.erase_text hheld key, h.records⟩
  putCheckpoint h := ⟨h.events, h.rows, h.records⟩

end Tangle
