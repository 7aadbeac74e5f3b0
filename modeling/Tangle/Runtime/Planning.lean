import Tangle.Groups.Signing

/-!
# Planning the outbox

What an accepted event makes the relay generate is read off the projection after the event: a
create owes the group's metadata and admins, an edit its metadata, a membership change its members
and, when the change made or unmade an override admin, its admins; a join or a leave owes the
membership it amounts to. The target of a membership change is read here a second time, and more
strictly than the structure gate reads it: every `p` tag must name a key, not only the last.
-/

namespace Tangle

open GroupEventView

/-- The member a membership change is about; every `p` tag must name a key. -/
def membershipTargetPubkey (event : PocketEvent) : Except GroupError PublicKeyHex :=
  lastTargetTag "p" (parseTargetPubkey "p") event

/-- An event named by a tag, an error where the text is no id. -/
def parseTargetEventId (value : Text) : Except GroupError EventId :=
  (EventId.new value).mapError fun reason =>
    .invalid .malformedTargetTag s!"malformed e target tag: {reason}"

/-- The event a deletion is about; every `e` tag must name an id. -/
def deleteTargetEventId (event : PocketEvent) : Except GroupError EventId :=
  lastTargetTag "e" parseTargetEventId event

/-- `member_is_relay_override_admin`: a current member with the relay's own role. -/
def memberIsRelayOverrideAdmin (projection : GroupProjection) (groupId : GroupId)
    (pubkey : PublicKeyHex) : Bool :=
  ((projection.member groupId pubkey).filter fun member => member.status == .member).any
    fun member => member.roles.contains RoleName.permanentRelayOverride

/-- Whether the target of a membership change is an override admin before the change. -/
def membershipAdminSnapshotState (projection : GroupProjection) (event : PocketEvent)
    (eventClass : GroupEventClass) : Except GroupError (Option Bool) :=
  match eventClass with
  | .moderation kind groupId =>
    if kind.value = kindGroupPutUser ∨ kind.value = kindGroupRemoveUser then do
      let target ← membershipTargetPubkey event
      return some (memberIsRelayOverrideAdmin projection groupId target)
    else
      .ok none
  | _ => .ok none

/-- The record of one effect of an event, to be tried. -/
def pendingRecord (event : PocketEvent) (effect : GroupOutboxEffect) (groupId : GroupId)
    (targetPubkey : Option PublicKeyHex) (payload : GroupOutboxPayload) :
    Except GroupError GroupOutboxRecord := do
  return .pending ⟨← GroupEventView.id event, effect, groupId, targetPubkey⟩ payload

/-- `require_projected_group`: the group must be there once a write was accepted. -/
def requireProjectedGroup (projection : GroupProjection) (groupId : GroupId) :
    Except GroupError GroupState :=
  match projection.group groupId with
  | some group => .ok group
  | none => .error (.internal "group projection is missing after accepted write")

/-- `member_snapshot_record`: a list that is longer than the cap is recorded as skipped. -/
def memberSnapshotRecord (event : PocketEvent) (groupId : GroupId) (projection : GroupProjection)
    (createdAt : UnixTimestamp) (memberSnapshotCap : UInt32) :
    Except GroupError (List GroupOutboxRecord) := do
  let key : GroupOutboxKey := ⟨← GroupEventView.id event, .memberListSnapshot, groupId, none⟩
  match GroupGeneratedEventBuilder.memberListSnapshotPayload groupId projection createdAt
      memberSnapshotCap with
  | some payload => return [.pending key payload]
  | none =>
    let record := GroupOutboxRecord.pending key
      ⟨kindGroupMembers, createdAt, [["d".toList, groupId.text]], []⟩
    return [record.markSkipped "member snapshot exceeds configured cap"]

/-- `member_snapshot_records`: the members and, where the change made or unmade an override admin,
the admins. -/
def memberSnapshotRecords (event : PocketEvent) (groupId : GroupId) (projection : GroupProjection)
    (authority : GroupAuthority) (createdAt : UnixTimestamp) (memberSnapshotCap : UInt32)
    (beforeMembershipAdmin : Option Bool) : Except GroupError (List GroupOutboxRecord) := do
  let records ← memberSnapshotRecord event groupId projection createdAt memberSnapshotCap
  match beforeMembershipAdmin with
  | none => return records
  | some before =>
    let target ← membershipTargetPubkey event
    let after := memberIsRelayOverrideAdmin projection groupId target
    if before ≠ after then
      return records ++ [← pendingRecord event .adminListSnapshot groupId none
        (GroupGeneratedEventBuilder.adminListSnapshotPayload groupId projection authority
          createdAt)]
    else
      return records

/-- The metadata snapshot of a group, as a record. -/
def metadataSnapshotRecord (pocket : PocketTypes) (event : PocketEvent) (groupId : GroupId)
    (group : GroupState) : Except GroupError GroupOutboxRecord := do
  pendingRecord event .metadataSnapshot groupId none
    (← GroupGeneratedEventBuilder.metadataSnapshotPayload pocket group (createdAt event))

/-- `plan_group_outbox_records`: what follows from an event by its kind, the projection being the
one after it. -/
def planGroupOutboxRecords (pocket : PocketTypes) (event : PocketEvent)
    (eventClass : GroupEventClass) (projection : GroupProjection) (authority : GroupAuthority)
    (memberSnapshotCap : UInt32) (beforeMembershipAdmin : Option Bool) :
    Except GroupError (List GroupOutboxRecord) :=
  match eventClass with
  | .moderation kind groupId =>
    match kind.value with
    | kindGroupCreateGroup => do
      let group ← requireProjectedGroup projection groupId
      let metadata ← metadataSnapshotRecord pocket event groupId group
      let admins ← pendingRecord event .adminListSnapshot groupId none
        (GroupGeneratedEventBuilder.adminListSnapshotPayload groupId projection authority
          (createdAt event))
      return [metadata, admins]
    | kindGroupEditMetadata => do
      let group ← requireProjectedGroup projection groupId
      return [← metadataSnapshotRecord pocket event groupId group]
    | kindGroupPutUser | kindGroupRemoveUser =>
      memberSnapshotRecords event groupId projection authority (createdAt event)
        memberSnapshotCap beforeMembershipAdmin
    | _ => .ok []
  | .normal groupId =>
    match kindU32 event with
    | kindGroupJoinRequest => do
      let pubkey ← GroupEventView.pubkey event
      return [← pendingRecord event .joinAccepted groupId (some pubkey)
        (GroupGeneratedEventBuilder.joinAcceptedPayload groupId pubkey (createdAt event))]
    | kindGroupLeaveRequest => do
      let pubkey ← GroupEventView.pubkey event
      return [← pendingRecord event .leaveAccepted groupId (some pubkey)
        (GroupGeneratedEventBuilder.leaveAcceptedPayload groupId pubkey (createdAt event))]
    | _ => .ok []
  | .nonGroup | .relayGeneratedSnapshot _ _ => .ok []

end Tangle
