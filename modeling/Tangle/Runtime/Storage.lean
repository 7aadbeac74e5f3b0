import Tangle.Runtime.Store
import Tangle.Groups.Policy

/-!
# Loading and saving the projection

The rows of the projection table are the projection's entries; the checkpoint says up to which
event they were complete when a snapshot was last written. A start without a current checkpoint
rebuilds the projection from all events; a start with one trusts the rows and applies the events
after the checkpoint. A snapshot deletes every row, writes every row and writes the checkpoint
last, one store operation at a time.

The clock that dates a checkpoint is an argument; reading it fails only before 1970, which is left
out.
-/

namespace Tangle

/-- What the group service does with the store, ending in a value or in a relay error. -/
abbrev BaseM (α : Type) : Type :=
  StoreM BaseRelayError α

/-- A check of the group engine inside a store program (`?` on a `GroupError`). -/
def liftGroup {α : Type} (x : Except GroupError α) : BaseM α :=
  liftM (x.mapError BaseRelayError.ofGroup)

/-! ## Scans -/

/-- `CanonicalGroupEventScan`: the events that concern groups, and the offset up to which the store
was read. -/
structure CanonicalGroupEventScan where
  events : List CanonicalGroupEvent
  scannedEvents : Nat
  skippedEvents : Nat

/-- Sorts the stored events into group events and others. -/
def scanClassified (limits : GroupLimitsConfig) (stored : List StoredEvent) :
    Except GroupError CanonicalGroupEventScan :=
  stored.foldlM (fun scan stored => do
    match ← classifyGroupEvent stored.event limits with
    | .nonGroup => return { scan with skippedEvents := scan.skippedEvents + 1 }
    | .normal _ | .moderation _ _ | .relayGeneratedSnapshot _ _ =>
      return { scan with events := scan.events ++ [stored] })
    (⟨[], stored.length, 0⟩ : CanonicalGroupEventScan)

/-- `scan_canonical_group_events_after`: the store is read behind an offset and each event of a
group kind is parsed. -/
def scanCanonicalGroupEventsAfter (lastOffset : Option StoreOffset) (limits : GroupLimitsConfig) :
    BaseM CanonicalGroupEventScan := do
  let stored ← StoreM.scanEventsAfter BaseRelayError.error lastOffset
  liftGroup (scanClassified limits stored)

/-- `scan_canonical_group_events`: the same from the beginning. -/
def scanCanonicalGroupEvents (limits : GroupLimitsConfig) : BaseM CanonicalGroupEventScan :=
  scanCanonicalGroupEventsAfter none limits

/-! ## Rows -/

/-- Writes rows of the projection table one by one. -/
def putProjectionRows (rows : List (Text × ExtraValue)) : BaseM Unit :=
  forM rows fun row => StoreM.putExtraRecord BaseRelayError.error .projection row.1 row.2

/-- The rows of one group, in the order `persist_group_projection` writes them. -/
def groupRows (projection : GroupProjection) (groupId : GroupId) : List (Text × ExtraValue) :=
  ((projection.group groupId).toList.map fun group =>
      (groupCurrentKey groupId, group.toJsonBytes)) ++
    ((projection.members.toList.filter fun entry => (ofLex entry.1).1 == groupId).map fun entry =>
      (memberCurrentKey groupId (ofLex entry.1).2, entry.2.toJsonBytes)) ++
    ((projection.roles.toList.filter fun entry => (ofLex entry.1).1 == groupId).map fun entry =>
      (roleCurrentKey groupId (ofLex entry.1).2, entry.2.toJsonBytes)) ++
    ((projection.tombstone groupId).toList.map fun tombstone =>
      (tombstoneKey groupId, tombstone.toJsonBytes)) ++
    ((projection.eventDeletions.toList.filter fun entry => entry.2.groupId == groupId).map
      fun entry => (eventDeletionKey entry.1, entry.2.toJsonBytes))

/-- `persist_group_projection`: the rows of one group are written one by one. -/
def persistGroupProjection (projection : GroupProjection) (groupId : GroupId) : BaseM Unit :=
  putProjectionRows (groupRows projection groupId)

/-- All rows of a projection, in the order a snapshot writes them. -/
def snapshotRows (projection : GroupProjection) : List (Text × ExtraValue) :=
  (projection.groups.toList.map fun entry => (groupCurrentKey entry.1, entry.2.toJsonBytes)) ++
    (projection.members.toList.map fun entry =>
      (memberCurrentKey (ofLex entry.1).1 (ofLex entry.1).2, entry.2.toJsonBytes)) ++
    (projection.roles.toList.map fun entry =>
      (roleCurrentKey (ofLex entry.1).1 (ofLex entry.1).2, entry.2.toJsonBytes)) ++
    (projection.tombstones.toList.map fun entry =>
      (tombstoneKey entry.1, entry.2.toJsonBytes)) ++
    (projection.eventDeletions.toList.map fun entry =>
      (eventDeletionKey entry.1, entry.2.toJsonBytes))

/-- `clear_extra_table`: every row of the table is deleted, key by key. -/
def clearExtraTable (table : GroupTable) : BaseM Unit := do
  let records ← StoreM.scanExtraRecords BaseRelayError.error table
  forM records fun record => StoreM.deleteExtraRecord BaseRelayError.error table record.1

/-- `put_checkpoint`: the row that says up to where the projection has read. -/
def putCheckpoint (checkpoint : ProjectionCheckpoint) : BaseM Unit :=
  StoreM.putExtraRecord BaseRelayError.error .checkpoint projectionCheckpointKey
    checkpoint.toJsonBytes

/-- `persist_group_projection_snapshot`: the table is cleared, the rows of the whole projection are
written, and its checkpoint last. -/
def persistGroupProjectionSnapshot (projection : GroupProjection) : BaseM Unit := do
  clearExtraTable .projection
  putProjectionRows (snapshotRows projection)
  match projection.checkpoint with
  | some checkpoint => putCheckpoint checkpoint
  | none => throw (.error "group projection rebuild checkpoint is missing")

/-- The error for a row whose key is none of a projection's. -/
def unknownProjectionKey (key : Text) : BaseRelayError :=
  .error s!"unknown group projection extra-table key: {key.toMessage}"

/-- Reads one row into the projection; the key says what the row is. -/
def loadProjectionRow (projection : GroupProjection) (key : Text) (value : ExtraValue) :
    Except BaseRelayError GroupProjection :=
  let lift {α : Type} (x : Except GroupError α) := x.mapError BaseRelayError.ofGroup
  match splitNul key with
  | [table, _] =>
    if table = "group".toList then
      projection.putGroup <$> lift (GroupState.fromJsonBytes value)
    else if table = "tombstone".toList then
      projection.putTombstone <$> lift (GroupTombstone.fromJsonBytes value)
    else if table = "event_deletion".toList then
      projection.putEventDeletion <$> lift (GroupEventDeletion.fromJsonBytes value)
    else
      .error (unknownProjectionKey key)
  | [table, groupId, _] =>
    if table = "member".toList then do
      let groupId ← lift (GroupId.new groupId)
      return projection.putMember groupId (← lift (MemberState.fromJsonBytes value))
    else if table = "role".toList then do
      let groupId ← lift (GroupId.new groupId)
      return projection.putRole groupId (← lift (ProjectedRoleDefinition.fromJsonBytes value))
    else
      .error (unknownProjectionKey key)
  | _ => .error (unknownProjectionKey key)

/-- `load_group_projection`: each row is decoded and the checkpoint of the table, if there is one,
taken over. -/
def loadGroupProjection (records : List (Text × ExtraValue))
    (checkpoint : Option ProjectionCheckpoint) : Except BaseRelayError GroupProjection := do
  let projection ← records.foldlM (fun projection record =>
    loadProjectionRow projection record.1 record.2) GroupProjection.new
  match checkpoint with
  | some checkpoint => return projection.setCheckpoint checkpoint
  | none => return projection

/-- `load_group_outbox`: each row is decoded and put under the key of its record. -/
def loadGroupOutbox (records : List (Text × ExtraValue)) : Except BaseRelayError GroupOutbox :=
  records.foldlM (fun outbox record => do
    return outbox.update (← (GroupOutboxRecord.fromJsonBytes record.2).mapError
      BaseRelayError.ofGroup)) GroupOutbox.new

/-- `persist_outbox_record`. -/
def persistOutboxRecord (record : GroupOutboxRecord) : BaseM Unit :=
  StoreM.putExtraRecord BaseRelayError.error .outbox record.key.storageKey record.toJsonBytes

/-! ## Checking the tables -/

/-- `GroupCheckpointStatus`: whether the projection in the tables can be trusted. -/
inductive GroupCheckpointStatus where
  | missing
  | current (checkpoint : ProjectionCheckpoint)
  | stale (checkpoint : ProjectionCheckpoint)
deriving DecidableEq

namespace GroupCheckpointStatus

/-- `requires_rebuild`: a missing checkpoint and a stale one both do. -/
def requiresRebuild : GroupCheckpointStatus → Bool
  | current _ => false
  | missing | stale _ => true

/-- `checkpoint`. -/
def checkpoint : GroupCheckpointStatus → Option ProjectionCheckpoint
  | missing => none
  | current checkpoint | stale checkpoint => some checkpoint

/-- The status of a checkpoint row. -/
def ofRow : Option ExtraValue → Except GroupError GroupCheckpointStatus
  | none => .ok missing
  | some raw => do
    let checkpoint ← ProjectionCheckpoint.fromJsonBytes raw
    if checkpoint.matchesCurrentVersions then
      return current checkpoint
    else
      return stale checkpoint

end GroupCheckpointStatus

/-- `validate_group_checkpoint`: a checkpoint of other versions is stale. -/
def validateGroupCheckpoint : BaseM GroupCheckpointStatus := do
  let row ← StoreM.getExtraRecord BaseRelayError.error .checkpoint projectionCheckpointKey
  liftGroup (GroupCheckpointStatus.ofRow row)

/-- The check of one row of the projection table. -/
def validateProjectionRow (key : Text) (value : ExtraValue) : Except BaseRelayError Unit :=
  let read {α : Type} (x : Except GroupError α) : Except BaseRelayError Unit :=
    (fun _ => ()) <$> x.mapError BaseRelayError.ofGroup
  match splitNul key with
  | [table, _] =>
    if table = "group".toList then read (GroupState.fromJsonBytes value)
    else if table = "tombstone".toList then read (GroupTombstone.fromJsonBytes value)
    else if table = "event_deletion".toList then read (GroupEventDeletion.fromJsonBytes value)
    else .error (unknownProjectionKey key)
  | [table, _, _] =>
    if table = "member".toList then read (MemberState.fromJsonBytes value)
    else if table = "role".toList then read (ProjectedRoleDefinition.fromJsonBytes value)
    else .error (unknownProjectionKey key)
  | _ => .error (unknownProjectionKey key)

/-- `validate_group_projection_records`: every row decodes. -/
def validateGroupProjectionRecords : BaseM Nat := do
  let records ← StoreM.scanExtraRecords BaseRelayError.error .projection
  liftM (forM records fun record => validateProjectionRow record.1 record.2)
  return records.length

/-- `validate_group_outbox_records`: every row decodes. -/
def validateGroupOutboxRecords : BaseM Nat := do
  let records ← StoreM.scanExtraRecords BaseRelayError.error .outbox
  liftM (forM records fun record => (fun _ => ()) <$>
    (GroupOutboxRecord.fromJsonBytes record.2).mapError BaseRelayError.ofGroup)
  return records.length

/-- `GroupExtraTableValidation`: how many rows the tables hold, and what the checkpoint is worth. -/
structure GroupExtraTableValidation where
  projectionRecords : Nat
  outboxRecords : Nat
  checkpointStatus : GroupCheckpointStatus

/-- `validate_group_extra_tables`. -/
def validateGroupExtraTables : BaseM GroupExtraTableValidation := do
  let projectionRecords ← validateGroupProjectionRecords
  let outboxRecords ← validateGroupOutboxRecords
  return ⟨projectionRecords, outboxRecords, ← validateGroupCheckpoint⟩

/-- `validate_rebuilt_group_projection`: after a rebuild the tables are checked, and the checkpoint
must be current. -/
def validateRebuiltGroupProjection : BaseM Unit := do
  let validation ← validateGroupExtraTables
  if validation.checkpointStatus.requiresRebuild then
    throw (.error "group projection checkpoint is not current after rebuild")

/-- Checking the tables keeps whatever holds of the store. -/
theorem keeps_validateRebuiltGroupProjection {db : PocketDb} {I : PocketStore → Prop} :
    Keeps db.handle I validateRebuiltGroupProjection fun _ => True := by
  have hscan : ∀ table, Keeps db.handle I
      (StoreM.scanExtraRecords BaseRelayError.error table) fun _ => True :=
    fun table => keeps_scanExtraRecords fun _ _ => trivial
  have hprojection : Keeps db.handle I validateGroupProjectionRecords fun _ => True :=
    (hscan _).bind fun _ _ =>
      Keeps.bind (Keeps.liftExcept fun _ _ => trivial) fun _ _ => Keeps.pure trivial
  have houtbox : Keeps db.handle I validateGroupOutboxRecords fun _ => True :=
    (hscan _).bind fun _ _ =>
      Keeps.bind (Keeps.liftExcept fun _ _ => trivial) fun _ _ => Keeps.pure trivial
  have hcheckpoint : Keeps db.handle I validateGroupCheckpoint fun _ => True :=
    Keeps.bind (keeps_getExtraRecord _ _) fun _ _ => Keeps.liftExcept fun _ _ => trivial
  have htables : Keeps db.handle I validateGroupExtraTables fun _ => True :=
    hprojection.bind fun _ _ => houtbox.bind fun _ _ => hcheckpoint.bind fun _ _ =>
      Keeps.pure trivial
  refine htables.bind fun validation _ => ?_
  split
  · exact Keeps.throw
  · exact Keeps.pure trivial

/-! ## Loading -/

/-- `GroupStorageState`: the projection and the outbox as a start reads them. -/
structure GroupStorageState where
  projection : GroupProjection
  outbox : GroupOutbox

/-- `apply_canonical_events_after_checkpoint`: the events that the checkpoint has not seen are
applied and written. -/
def applyCanonicalEventsAfterCheckpoint (projection : GroupProjection)
    (limits : GroupLimitsConfig) (now : UnixTimestamp) : BaseM GroupProjection := do
  let lastOffset := projection.checkpoint.bind ProjectionCheckpoint.lastOffset
  let scan ← scanCanonicalGroupEventsAfter lastOffset limits
  if scan.events.isEmpty then
    return projection
  else
    let nextOffset := (scan.events.map StoredEvent.storeOffset).max?
    let projection ← liftGroup (applyItems limits projection (sortByTuple scan.events))
    let projection := projection.setCheckpoint (.current nextOffset now)
    persistGroupProjectionSnapshot projection
    validateRebuiltGroupProjection
    return projection

/-- `load_group_storage`: with a current checkpoint the projection is loaded and brought up to the
end of the store, otherwise it is rebuilt from all of it. -/
def loadGroupStorage (limits : GroupLimitsConfig) (now : UnixTimestamp) :
    BaseM GroupStorageState := do
  let checkpointStatus ← validateGroupCheckpoint
  let outboxRecords ← StoreM.scanExtraRecords BaseRelayError.error .outbox
  if checkpointStatus.requiresRebuild then
    let scan ← scanCanonicalGroupEvents limits
    let report ← liftGroup (rebuildGroupProjection scan.events limits now)
    persistGroupProjectionSnapshot report.projection
    validateRebuiltGroupProjection
    return ⟨report.projection, ← liftM (loadGroupOutbox outboxRecords)⟩
  else
    let projectionRecords ← StoreM.scanExtraRecords BaseRelayError.error .projection
    let projection ← liftM (loadGroupProjection projectionRecords checkpointStatus.checkpoint)
    let projection ← applyCanonicalEventsAfterCheckpoint projection limits now
    return ⟨projection, ← liftM (loadGroupOutbox outboxRecords)⟩

end Tangle
