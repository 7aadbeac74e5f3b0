import Tangle.Groups.Outbox

/-!
# Stored documents

A row of the relay's tables is the JSON of a document, in which identifiers are text again. Reading
a row back runs the checks of the identifiers' constructors, and the group id is checked against
the default bound, not against the configured one: a row of a group with a longer id is written
but cannot be read (`GroupState.fromJsonBytes_toJsonBytes` and its siblings).

JSON itself is not modelled: encoding a document and decoding the result gives the document back,
so a row is kept as its document.
-/

namespace Tangle

/-- A scalar's error inside a document. -/
def documentScalar {α : Type} (x : Except String α) : Except GroupError α :=
  x.mapError GroupError.internal

/-- A scalar that can be read is read as it is. -/
@[simp] theorem documentScalar_ok {α : Type} (a : α) :
    documentScalar (.ok a : Except String α) = .ok a := rfl

/-! ## Documents of the projection -/

/-- The document of an order tuple, with the id as text. -/
structure TupleDocument where
  createdAt : Nat
  eventId : Text
  storeOffset : Nat

/-- `TupleDocument::from_tuple`. -/
def TupleDocument.fromTuple (tuple : ProjectionOrderTuple) : TupleDocument :=
  ⟨tuple.createdAt, tuple.eventId.text, tuple.storeOffset⟩

/-- `TupleDocument::into_tuple`: the id is checked again. -/
def TupleDocument.intoTuple (document : TupleDocument) :
    Except GroupError ProjectionOrderTuple := do
  return ⟨document.createdAt, ← documentScalar (EventId.new document.eventId),
    document.storeOffset⟩

/-- **A tuple is read back from its document.** The text of an id is that of an event id. -/
@[simp] theorem TupleDocument.intoTuple_fromTuple (tuple : ProjectionOrderTuple) :
    (fromTuple tuple).intoTuple = .ok tuple := by
  simp only [intoTuple, fromTuple, Hex64.new_text, documentScalar_ok, Except.ok_bind]
  rfl

/-- An optional tuple (`.map(TupleDocument::into_tuple).transpose()`). -/
def parseOptionalTuple (value : Option TupleDocument) :
    Except GroupError (Option ProjectionOrderTuple) :=
  match value with
  | none => .ok none
  | some document => some <$> document.intoTuple

/-- What may be absent is read back as well. -/
@[simp] theorem parseOptionalTuple_fromTuple (tuple : Option ProjectionOrderTuple) :
    parseOptionalTuple (tuple.map TupleDocument.fromTuple) = .ok tuple := by
  cases tuple with
  | none => rfl
  | some tuple => simp [parseOptionalTuple]

/-- The document of the supported kinds: all, none or a list. -/
inductive SupportedKindsDocument where
  | unspecifiedAll
  | none
  | only (values : List Nat)

/-- `SupportedKindsDocument::from_supported`. -/
def SupportedKindsDocument.fromSupported : SupportedKinds → SupportedKindsDocument
  | .unspecifiedAll => .unspecifiedAll
  | .none => .none
  | .only kinds => .only (kinds.toList.map Kind.value)

/-- `SupportedKindsDocument::into_supported`. -/
def SupportedKindsDocument.intoSupported : SupportedKindsDocument →
    Except GroupError SupportedKinds
  | .unspecifiedAll => .ok .unspecifiedAll
  | .none => .ok .none
  | .only values => do
    let kinds ← values.mapM fun value => (Kind.new value).mapError fun reason =>
      GroupError.invalid .unsupportedGroupKind s!"supported kind is invalid: {reason}"
    return .only (.ofList kinds compare)

/-- **Supported kinds are read back.** A list that was accepted once is accepted again. -/
@[simp] theorem SupportedKindsDocument.intoSupported_fromSupported (kinds : SupportedKinds) :
    (fromSupported kinds).intoSupported = .ok kinds := by
  cases kinds with
  | unspecifiedAll => rfl
  | none => rfl
  | only kinds =>
    have hmap : (kinds.toList.map Kind.value).mapM (fun value =>
        (Kind.new value).mapError fun reason =>
          GroupError.invalid .unsupportedGroupKind s!"supported kind is invalid: {reason}")
        = .ok kinds.toList := by
      rw [Except.mapM_eq_ok, List.forall₂_map_left_iff]
      exact List.forall₂_same.mpr fun kind _ => by rw [Kind.new_value]; rfl
    simp only [fromSupported, intoSupported, hmap, Except.ok_bind, BTreeSet.ofList_toList]
    rfl

/-- The document of a group's metadata. -/
structure MetadataDocument where
  name : Option Text
  picture : Option Text
  about : Option Text
  isPrivate : Bool
  restricted : Bool
  hidden : Bool
  closed : Bool
  supportedKinds : SupportedKindsDocument

/-- `MetadataDocument::from_metadata`. -/
def MetadataDocument.fromMetadata (metadata : GroupMetadata) : MetadataDocument :=
  ⟨metadata.name, metadata.picture, metadata.about, metadata.isPrivate, metadata.restricted,
    metadata.hidden, metadata.closed, .fromSupported metadata.supportedKinds⟩

/-- `MetadataDocument::into_metadata`. -/
def MetadataDocument.intoMetadata (document : MetadataDocument) :
    Except GroupError GroupMetadata := do
  return ⟨document.name, document.picture, document.about, document.isPrivate,
    document.restricted, document.hidden, document.closed,
    ← document.supportedKinds.intoSupported⟩

/-- Metadata is read back from its document. -/
@[simp] theorem MetadataDocument.intoMetadata_fromMetadata (metadata : GroupMetadata) :
    (fromMetadata metadata).intoMetadata = .ok metadata := by
  simp only [intoMetadata, fromMetadata, SupportedKindsDocument.intoSupported_fromSupported,
    Except.ok_bind]
  rfl

/-- An event id that may be absent. -/
def parseOptionalEventId (value : Option Text) : Except GroupError (Option EventId) :=
  match value with
  | none => .ok none
  | some value => some <$> documentScalar (EventId.new value)

/-- The text of an id is read as the id. -/
@[simp] theorem parseOptionalEventId_text (id : Option EventId) :
    parseOptionalEventId (id.map Hex64.text) = .ok id := by
  cases id with
  | none => rfl
  | some id => simp [parseOptionalEventId]

/-- The document of the ids of the latest snapshots, one for each kind. -/
structure SnapshotIdsDocument where
  metadata : Option Text
  admins : Option Text
  members : Option Text
  roles : Option Text
  state39004 : Option Text

/-- `SnapshotIdsDocument::from_snapshots`. -/
def SnapshotIdsDocument.fromSnapshots (value : GroupSnapshotIds) : SnapshotIdsDocument :=
  ⟨value.metadata.map Hex64.text, value.admins.map Hex64.text, value.members.map Hex64.text,
    value.roles.map Hex64.text, value.state39004.map Hex64.text⟩

/-- `SnapshotIdsDocument::into_snapshots`. -/
def SnapshotIdsDocument.intoSnapshots (document : SnapshotIdsDocument) :
    Except GroupError GroupSnapshotIds := do
  return ⟨← parseOptionalEventId document.metadata, ← parseOptionalEventId document.admins,
    ← parseOptionalEventId document.members, ← parseOptionalEventId document.roles,
    ← parseOptionalEventId document.state39004⟩

/-- The ids of snapshots are read back from their document. -/
@[simp] theorem SnapshotIdsDocument.intoSnapshots_fromSnapshots (value : GroupSnapshotIds) :
    (fromSnapshots value).intoSnapshots = .ok value := by
  simp only [intoSnapshots, fromSnapshots, parseOptionalEventId_text, Except.ok_bind]
  rfl

/-- The label that a lifecycle is written as. -/
def lifecycleLabel : GroupLifecycleState → String
  | .active => "active"
  | .deleted => "deleted"

/-- Reads the label of a lifecycle, and refuses any other text. -/
def parseLifecycle (value : String) : Except GroupError GroupLifecycleState :=
  match value with
  | "active" => .ok .active
  | "deleted" => .ok .deleted
  | _ => .error (.internal s!"unknown group lifecycle {value}")

/-- A label is read as the lifecycle it was written for. -/
@[simp] theorem parseLifecycle_lifecycleLabel (value : GroupLifecycleState) :
    parseLifecycle (lifecycleLabel value) = .ok value := by
  cases value <;> rfl

/-- The label that the status of a member is written as. -/
def memberStatusLabel : MemberStatus → String
  | .member => "member"
  | .removed => "removed"

/-- Reads the label of a status, and refuses any other text. -/
def parseMemberStatus (value : String) : Except GroupError MemberStatus :=
  match value with
  | "member" => .ok .member
  | "removed" => .ok .removed
  | _ => .error (.internal s!"unknown member status {value}")

/-- A label is read as the status it was written for. -/
@[simp] theorem parseMemberStatus_memberStatusLabel (value : MemberStatus) :
    parseMemberStatus (memberStatusLabel value) = .ok value := by
  cases value <;> rfl

/-- The document of a group, as a row of the store holds it. -/
structure GroupStateDocument where
  id : Text
  lifecycle : String
  metadata : MetadataDocument
  createdBy : Text
  createdEventId : Text
  createdTuple : TupleDocument
  metadataTuple : TupleDocument
  deletedAt : Option Nat
  deleteEventId : Option Text
  deletedTuple : Option TupleDocument
  snapshots : SnapshotIdsDocument

/-- The document of a member of a group. -/
structure MemberStateDocument where
  pubkey : Text
  status : String
  roles : List Text
  lastEventId : Text
  lastTuple : TupleDocument

/-- The document of a role and its definition. -/
structure ProjectedRoleDefinitionDocument where
  name : Text
  capabilities : List String
  description : Option Text
  lastEventId : Text
  lastTuple : TupleDocument

/-- The document of what is left of a deleted group. -/
structure GroupTombstoneDocument where
  groupId : Text
  deleteEventId : Text
  deletedAt : Nat
  deletedBy : Text
  lastTuple : TupleDocument

/-- The document of an event that a group has deleted. -/
structure GroupEventDeletionDocument where
  groupId : Text
  targetEventId : Text
  deleteEventId : Text
  deletedAt : Nat
  deletedBy : Text
  lastTuple : TupleDocument

/-- The document of how far the projection has come. -/
structure ProjectionCheckpointDocument where
  projectionVersion : Nat
  policyVersion : Nat
  lastOffset : Option Nat
  rebuiltAt : Nat

/-! ## Documents of the outbox -/

/-- The document of the key of a waiting record. -/
structure GroupOutboxKeyDocument where
  sourceEventId : Text
  effect : String
  groupId : Text
  targetPubkey : Option Text

/-- The document of what has become of a record. -/
inductive GroupOutboxStatusDocument where
  | pending
  | stored (generatedEventId : Text)
  | skipped (reason : String)
  | failed (retryable : Bool)

/-- The document of what a record is to generate. -/
structure GroupOutboxPayloadDocument where
  generatedKind : Nat
  generatedCreatedAt : Nat
  tags : List (List Text)
  content : Text

/-- The document of a record of the outbox. -/
structure GroupOutboxRecordDocument where
  key : GroupOutboxKeyDocument
  status : GroupOutboxStatusDocument
  payload : GroupOutboxPayloadDocument
  attempts : Nat
  lastError : Option String

/-- A row of a table, as the document it encodes. -/
inductive ExtraValue where
  | group (document : GroupStateDocument)
  | member (document : MemberStateDocument)
  | role (document : ProjectedRoleDefinitionDocument)
  | tombstone (document : GroupTombstoneDocument)
  | eventDeletion (document : GroupEventDeletionDocument)
  | checkpoint (document : ProjectionCheckpointDocument)
  | outboxRecord (document : GroupOutboxRecordDocument)

/-! ## Writing and reading rows -/

/-- A group id read back from a row checks its length against the default bound. -/
theorem GroupId.new_text_iff {id id' : GroupId} :
    GroupId.new id.text = .ok id' ↔ id' = id ∧ id.text.byteLen ≤ maxGroupIdBytes := by
  unfold GroupId.new
  rw [GroupId.newWithMaxBytes_eq_ok]
  exact and_congr_left fun _ => ⟨fun h => GroupId.text_injective h, fun h => congrArg _ h⟩

namespace GroupState

/-- `GroupState::to_json_bytes`. -/
def toJsonBytes (state : GroupState) : ExtraValue :=
  .group ⟨state.id.text, lifecycleLabel state.lifecycle, .fromMetadata state.metadata,
    state.createdBy.text, state.createdEventId.text, .fromTuple state.createdTuple,
    .fromTuple state.metadataTuple, state.deletedAt, state.deleteEventId.map Hex64.text,
    state.deletedTuple.map .fromTuple, .fromSnapshots state.snapshots⟩

/-- `GroupState::from_json_bytes`: every part is checked as it was when it was made. -/
def fromJsonBytes : ExtraValue → Except GroupError GroupState
  | .group document => do
    let id ← GroupId.new document.id
    let lifecycle ← parseLifecycle document.lifecycle
    let metadata ← document.metadata.intoMetadata
    let createdBy ← documentScalar (PublicKeyHex.new document.createdBy)
    let createdEventId ← documentScalar (EventId.new document.createdEventId)
    let createdTuple ← document.createdTuple.intoTuple
    let metadataTuple ← document.metadataTuple.intoTuple
    let deleteEventId ← parseOptionalEventId document.deleteEventId
    let deletedTuple ← parseOptionalTuple document.deletedTuple
    let snapshots ← document.snapshots.intoSnapshots
    return ⟨id, lifecycle, metadata, createdBy, createdEventId, createdTuple, metadataTuple,
      document.deletedAt, deleteEventId, deletedTuple, snapshots⟩
  | _ => .error (.internal "group state JSON decode failed")

/-- A group's row is read back when the group id is within the default bound. -/
theorem fromJsonBytes_toJsonBytes {state : GroupState}
    (h : state.id.text.byteLen ≤ maxGroupIdBytes) :
      fromJsonBytes state.toJsonBytes = .ok state := by
  simp only [toJsonBytes, fromJsonBytes, GroupId.new_text h, parseLifecycle_lifecycleLabel,
    MetadataDocument.intoMetadata_fromMetadata, Hex64.new_text, documentScalar_ok,
    TupleDocument.intoTuple_fromTuple, parseOptionalEventId_text, parseOptionalTuple_fromTuple,
    SnapshotIdsDocument.intoSnapshots_fromSnapshots, Except.ok_bind]
  rfl

/-- A group's row that is read back is the group's, whose id is within the default bound. -/
theorem fromJsonBytes_toJsonBytes_eq_ok {state state' : GroupState} :
    fromJsonBytes state.toJsonBytes = .ok state' ↔
      state' = state ∧ state.id.text.byteLen ≤ maxGroupIdBytes := by
  refine ⟨fun h => ?_, fun ⟨h, hlen⟩ => h.symm ▸ fromJsonBytes_toJsonBytes hlen⟩
  obtain ⟨id, hid, _⟩ := Except.bind_eq_ok.mp h
  have hlen := (GroupId.new_text_iff.mp hid).2
  rw [fromJsonBytes_toJsonBytes hlen] at h
  exact ⟨(Except.ok.inj h).symm, hlen⟩

end GroupState

namespace MemberState

/-- `MemberState::to_json_bytes`. -/
def toJsonBytes (state : MemberState) : ExtraValue :=
  .member ⟨state.pubkey.text, memberStatusLabel state.status, state.roles.toList.map RoleName.text,
    state.lastEventId.text, .fromTuple state.lastTuple⟩

/-- `MemberState::from_json_bytes`. -/
def fromJsonBytes : ExtraValue → Except GroupError MemberState
  | .member document => do
    let pubkey ← documentScalar (PublicKeyHex.new document.pubkey)
    let status ← parseMemberStatus document.status
    let roles ← document.roles.mapM RoleName.new
    let lastEventId ← documentScalar (EventId.new document.lastEventId)
    return ⟨pubkey, status, .ofList roles compare, lastEventId, ← document.lastTuple.intoTuple⟩
  | _ => .error (.internal "member state JSON decode failed")

/-- A member's row is always read back. -/
@[simp] theorem fromJsonBytes_toJsonBytes (state : MemberState) :
    fromJsonBytes state.toJsonBytes = .ok state := by
  have hroles : (state.roles.toList.map RoleName.text).mapM RoleName.new =
      .ok state.roles.toList := by
    rw [Except.mapM_eq_ok, List.forall₂_map_left_iff]
    exact List.forall₂_same.mpr fun name _ => RoleName.new_text name
  simp only [toJsonBytes, fromJsonBytes, Hex64.new_text, documentScalar_ok,
    parseMemberStatus_memberStatusLabel, hroles, TupleDocument.intoTuple_fromTuple,
    Except.ok_bind, BTreeSet.ofList_toList]
  rfl

end MemberState

namespace ProjectedRoleDefinition

/-- `ProjectedRoleDefinition::to_json_bytes`. -/
def toJsonBytes (role : ProjectedRoleDefinition) : ExtraValue :=
  .role ⟨role.definition.name.text, CapabilitySet.labels role.definition.capabilities,
    role.definition.description, role.lastEventId.text, .fromTuple role.lastTuple⟩

/-- `ProjectedRoleDefinition::from_json_bytes`. -/
def fromJsonBytes : ExtraValue → Except GroupError ProjectedRoleDefinition
  | .role document => do
    let name ← RoleName.new document.name
    let capabilities ← CapabilitySet.fromLabels document.capabilities
    let lastEventId ← documentScalar (EventId.new document.lastEventId)
    return ⟨⟨name, capabilities, document.description⟩, lastEventId,
      ← document.lastTuple.intoTuple⟩
  | _ => .error (.internal "role state JSON decode failed")

/-- A role's row is always read back. -/
@[simp] theorem fromJsonBytes_toJsonBytes (role : ProjectedRoleDefinition) :
    fromJsonBytes role.toJsonBytes = .ok role := by
  simp only [toJsonBytes, fromJsonBytes, RoleName.new_text, CapabilitySet.fromLabels_labels,
    Hex64.new_text, documentScalar_ok, TupleDocument.intoTuple_fromTuple, Except.ok_bind]
  rfl

end ProjectedRoleDefinition

namespace GroupTombstone

/-- `GroupTombstone::to_json_bytes`. -/
def toJsonBytes (tombstone : GroupTombstone) : ExtraValue :=
  .tombstone ⟨tombstone.groupId.text, tombstone.deleteEventId.text, tombstone.deletedAt,
    tombstone.deletedBy.text, .fromTuple tombstone.lastTuple⟩

/-- `GroupTombstone::from_json_bytes`. -/
def fromJsonBytes : ExtraValue → Except GroupError GroupTombstone
  | .tombstone document => do
    let groupId ← GroupId.new document.groupId
    let deleteEventId ← documentScalar (EventId.new document.deleteEventId)
    let deletedBy ← documentScalar (PublicKeyHex.new document.deletedBy)
    return ⟨groupId, deleteEventId, document.deletedAt, deletedBy,
      ← document.lastTuple.intoTuple⟩
  | _ => .error (.internal "tombstone JSON decode failed")

/-- A tombstone's row is read back when the group id is within the default bound. -/
theorem fromJsonBytes_toJsonBytes {tombstone : GroupTombstone}
    (h : tombstone.groupId.text.byteLen ≤ maxGroupIdBytes) :
    fromJsonBytes tombstone.toJsonBytes = .ok tombstone := by
  simp only [toJsonBytes, fromJsonBytes, GroupId.new_text h, Hex64.new_text, documentScalar_ok,
    TupleDocument.intoTuple_fromTuple, Except.ok_bind]
  rfl

/-- A tombstone's row that is read back is the tombstone's, with an id within the bound. -/
theorem fromJsonBytes_toJsonBytes_eq_ok {tombstone tombstone' : GroupTombstone} :
    fromJsonBytes tombstone.toJsonBytes = .ok tombstone' ↔
      tombstone' = tombstone ∧ tombstone.groupId.text.byteLen ≤ maxGroupIdBytes := by
  refine ⟨fun h => ?_, fun ⟨h, hlen⟩ => h.symm ▸ fromJsonBytes_toJsonBytes hlen⟩
  obtain ⟨id, hid, _⟩ := Except.bind_eq_ok.mp h
  have hlen := (GroupId.new_text_iff.mp hid).2
  rw [fromJsonBytes_toJsonBytes hlen] at h
  exact ⟨(Except.ok.inj h).symm, hlen⟩

end GroupTombstone

namespace GroupEventDeletion

/-- `GroupEventDeletion::to_json_bytes`. -/
def toJsonBytes (deletion : GroupEventDeletion) : ExtraValue :=
  .eventDeletion ⟨deletion.groupId.text, deletion.targetEventId.text, deletion.deleteEventId.text,
    deletion.deletedAt, deletion.deletedBy.text, .fromTuple deletion.lastTuple⟩

/-- `GroupEventDeletion::from_json_bytes`. -/
def fromJsonBytes : ExtraValue → Except GroupError GroupEventDeletion
  | .eventDeletion document => do
    let groupId ← GroupId.new document.groupId
    let targetEventId ← documentScalar (EventId.new document.targetEventId)
    let deleteEventId ← documentScalar (EventId.new document.deleteEventId)
    let deletedBy ← documentScalar (PublicKeyHex.new document.deletedBy)
    return ⟨groupId, targetEventId, deleteEventId, document.deletedAt, deletedBy,
      ← document.lastTuple.intoTuple⟩
  | _ => .error (.internal "event deletion JSON decode failed")

/-- A deletion's row is read back when the group id is within the default bound. -/
theorem fromJsonBytes_toJsonBytes {deletion : GroupEventDeletion}
    (h : deletion.groupId.text.byteLen ≤ maxGroupIdBytes) :
    fromJsonBytes deletion.toJsonBytes = .ok deletion := by
  simp only [toJsonBytes, fromJsonBytes, GroupId.new_text h, Hex64.new_text, documentScalar_ok,
    TupleDocument.intoTuple_fromTuple, Except.ok_bind]
  rfl

/-- A deletion's row that is read back is the deletion's, with an id within the bound. -/
theorem fromJsonBytes_toJsonBytes_eq_ok {deletion deletion' : GroupEventDeletion} :
    fromJsonBytes deletion.toJsonBytes = .ok deletion' ↔
      deletion' = deletion ∧ deletion.groupId.text.byteLen ≤ maxGroupIdBytes := by
  refine ⟨fun h => ?_, fun ⟨h, hlen⟩ => h.symm ▸ fromJsonBytes_toJsonBytes hlen⟩
  obtain ⟨id, hid, _⟩ := Except.bind_eq_ok.mp h
  have hlen := (GroupId.new_text_iff.mp hid).2
  rw [fromJsonBytes_toJsonBytes hlen] at h
  exact ⟨(Except.ok.inj h).symm, hlen⟩

end GroupEventDeletion

namespace ProjectionCheckpoint

/-- `ProjectionCheckpoint::to_json_bytes`. -/
def toJsonBytes (checkpoint : ProjectionCheckpoint) : ExtraValue :=
  .checkpoint ⟨checkpoint.projectionVersion, checkpoint.policyVersion, checkpoint.lastOffset,
    checkpoint.rebuiltAt⟩

/-- `ProjectionCheckpoint::from_json_bytes`. -/
def fromJsonBytes : ExtraValue → Except GroupError ProjectionCheckpoint
  | .checkpoint document => .ok ⟨document.projectionVersion, document.policyVersion,
      document.lastOffset, document.rebuiltAt⟩
  | _ => .error (.internal "checkpoint JSON decode failed")

/-- A checkpoint's row is always read back. -/
@[simp] theorem fromJsonBytes_toJsonBytes (checkpoint : ProjectionCheckpoint) :
    fromJsonBytes checkpoint.toJsonBytes = .ok checkpoint := rfl

end ProjectionCheckpoint

namespace GroupOutboxRecord

/-- The document of a status; ids are written as texts. -/
def statusDocument : GroupOutboxStatus → GroupOutboxStatusDocument
  | .pending => .pending
  | .stored generatedEventId => .stored generatedEventId.text
  | .skipped reason => .skipped reason
  | .failed retryable => .failed retryable

/-- Reads the document of a status. -/
def statusFromDocument : GroupOutboxStatusDocument → Except GroupError GroupOutboxStatus
  | .pending => .ok .pending
  | .stored generatedEventId => .stored <$> documentScalar (EventId.new generatedEventId)
  | .skipped reason => .ok (.skipped reason)
  | .failed retryable => .ok (.failed retryable)

/-- A status is read back from its document. -/
@[simp] theorem statusFromDocument_statusDocument (status : GroupOutboxStatus) :
    statusFromDocument (statusDocument status) = .ok status := by
  cases status <;> simp [statusDocument, statusFromDocument]

/-- A public key that may be absent. -/
def parseOptionalPubkey (value : Option Text) : Except GroupError (Option PublicKeyHex) :=
  match value with
  | none => .ok none
  | some value => some <$> documentScalar (PublicKeyHex.new value)

/-- The text of a key is read as the key. -/
@[simp] theorem parseOptionalPubkey_text (pubkey : Option PublicKeyHex) :
    parseOptionalPubkey (pubkey.map Hex64.text) = .ok pubkey := by
  cases pubkey with
  | none => rfl
  | some pubkey => simp [parseOptionalPubkey]

/-- `GroupOutboxRecord::to_json_bytes`. -/
def toJsonBytes (record : GroupOutboxRecord) : ExtraValue :=
  .outboxRecord ⟨⟨record.key.sourceEventId.text, record.key.effect.asStr, record.key.groupId.text,
      record.key.targetPubkey.map Hex64.text⟩, statusDocument record.status,
    ⟨record.payload.generatedKind, record.payload.generatedCreatedAt, record.payload.tags,
      record.payload.content⟩, record.attempts, record.lastError⟩

/-- The key of a record, whose parts are checked again. -/
def keyFromDocument (document : GroupOutboxKeyDocument) : Except GroupError GroupOutboxKey := do
  let sourceEventId ← documentScalar (EventId.new document.sourceEventId)
  let effect ← GroupOutboxEffect.fromLabel document.effect
  let groupId ← GroupId.new document.groupId
  return ⟨sourceEventId, effect, groupId, ← parseOptionalPubkey document.targetPubkey⟩

/-- `GroupOutboxRecord::from_json_bytes`. -/
def fromJsonBytes : ExtraValue → Except GroupError GroupOutboxRecord
  | .outboxRecord document => do
    let key ← keyFromDocument document.key
    let status ← statusFromDocument document.status
    return ⟨key, status, ⟨document.payload.generatedKind, document.payload.generatedCreatedAt,
      document.payload.tags, document.payload.content⟩, document.attempts, document.lastError⟩
  | _ => .error (.internal "outbox record JSON decode failed")

/-- A record's row is read back when the group id is within the default bound. -/
theorem fromJsonBytes_toJsonBytes {record : GroupOutboxRecord}
    (h : record.key.groupId.text.byteLen ≤ maxGroupIdBytes) :
    fromJsonBytes record.toJsonBytes = .ok record := by
  simp only [toJsonBytes, fromJsonBytes, keyFromDocument, GroupId.new_text h, Hex64.new_text,
    documentScalar_ok, GroupOutboxEffect.fromLabel_asStr, parseOptionalPubkey_text,
    statusFromDocument_statusDocument, Except.ok_bind]
  rfl

/-- A record's row that is read back is the record's, with a group id within the bound. -/
theorem fromJsonBytes_toJsonBytes_eq_ok {record record' : GroupOutboxRecord} :
    fromJsonBytes record.toJsonBytes = .ok record' ↔
      record' = record ∧ record.key.groupId.text.byteLen ≤ maxGroupIdBytes := by
  refine ⟨fun h => ?_, fun ⟨h, hlen⟩ => h.symm ▸ fromJsonBytes_toJsonBytes hlen⟩
  obtain ⟨key, hkey, _⟩ := Except.bind_eq_ok.mp h
  obtain ⟨_, _, hkey⟩ := Except.bind_eq_ok.mp hkey
  obtain ⟨_, _, hkey⟩ := Except.bind_eq_ok.mp hkey
  obtain ⟨id, hid, _⟩ := Except.bind_eq_ok.mp hkey
  have hlen := (GroupId.new_text_iff.mp hid).2
  rw [fromJsonBytes_toJsonBytes hlen] at h
  exact ⟨(Except.ok.inj h).symm, hlen⟩

end GroupOutboxRecord

/-! ## Storage keys -/

/-- A storage key: a prefix, a name and perhaps a second one, with NUL between them. -/
def prefixedKey (keyPrefix : String) (first : Text) (second : Option Text) : Text :=
  keyPrefix.toList ++ '\x00' :: first ++ second.elim [] fun second => '\x00' :: second

/-- The key of the row of a group. -/
def groupCurrentKey (groupId : GroupId) : Text := prefixedKey "group" groupId.text none

/-- The key of the row of a member, under its group. -/
def memberCurrentKey (groupId : GroupId) (pubkey : PublicKeyHex) : Text :=
  prefixedKey "member" groupId.text (some pubkey.text)

/-- The key of the row of a role, under its group. -/
def roleCurrentKey (groupId : GroupId) (roleName : RoleName) : Text :=
  prefixedKey "role" groupId.text (some roleName.text)

/-- The key of the row of a deleted group. -/
def tombstoneKey (groupId : GroupId) : Text := prefixedKey "tombstone" groupId.text none

/-- The key of the row of a deleted event. -/
def eventDeletionKey (eventId : EventId) : Text := prefixedKey "event_deletion" eventId.text none

/-- The one key of the checkpoint. -/
def projectionCheckpointKey : Text := prefixedKey "checkpoint" "groups".toList none

/-- The parts of a storage key (`key.split('\0')`). -/
def splitNul : Text → List Text
  | [] => [[]]
  | c :: rest =>
    if c = '\x00' then
      [] :: splitNul rest
    else
      match splitNul rest with
      | [] => [[c]]
      | part :: parts => (c :: part) :: parts

/-- A text without NUL is one part. -/
theorem splitNul_of_not_mem {value : Text} (h : '\x00' ∉ value) : splitNul value = [value] := by
  induction value with
  | nil => rfl
  | cons c rest ih =>
    obtain ⟨hc, hrest⟩ := List.ne_and_not_mem_of_not_mem_cons h
    simp only [splitNul, if_neg (Ne.symm hc), ih hrest]

/-- The first NUL ends the first part. -/
theorem splitNul_append {part rest : Text} (h : '\x00' ∉ part) :
    splitNul (part ++ '\x00' :: rest) = part :: splitNul rest := by
  induction part with
  | nil => simp [splitNul]
  | cons c tail ih =>
    obtain ⟨hc, htail⟩ := List.ne_and_not_mem_of_not_mem_cons h
    simp only [List.cons_append, splitNul, if_neg (Ne.symm hc), ih htail]

end Tangle
