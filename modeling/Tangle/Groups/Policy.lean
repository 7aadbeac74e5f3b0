import Tangle.Groups.Projection

/-!
# Who may write and who may read

The write policy decides on an event from the projection, the relay's owners and admins, and the
configured policy; the read gate decides on an event for one reader. Neither looks at more of a
group than its metadata and whether it is deleted, which is what makes it possible to compare two
projections by the decisions they lead to.
-/

namespace Tangle

open GroupEventView

/-! ## Authority and authentication -/

/-- The keys a client has authenticated as. -/
structure GroupAuthContext where
  authenticatedPubkeys : BTreeSet PublicKeyHex

namespace GroupAuthContext

/-- Nobody has authenticated. -/
def unauthenticated : GroupAuthContext :=
  ⟨∅⟩

/-- The keys that have authenticated. -/
def new (pubkeys : List PublicKeyHex) : GroupAuthContext :=
  ⟨.ofList pubkeys compare⟩

/-- Whether a key has authenticated. -/
def contains (auth : GroupAuthContext) (pubkey : PublicKeyHex) : Bool :=
  auth.authenticatedPubkeys.contains pubkey

end GroupAuthContext

/-- The relay's owners and admins. -/
structure GroupAuthority where
  ownerPubkeys : BTreeSet PublicKeyHex
  adminPubkeys : BTreeSet PublicKeyHex

namespace GroupAuthority

/-- The owners and admins of a relay. -/
def new (ownerPubkeys adminPubkeys : List PublicKeyHex) : GroupAuthority :=
  ⟨.ofList ownerPubkeys compare, .ofList adminPubkeys compare⟩

/-- Whether a key is an owner's. -/
def isOwner (authority : GroupAuthority) (pubkey : PublicKeyHex) : Bool :=
  authority.ownerPubkeys.contains pubkey

/-- Whether a key is an admin's or an owner's. -/
def isAdmin (authority : GroupAuthority) (pubkey : PublicKeyHex) : Bool :=
  authority.adminPubkeys.contains pubkey || authority.isOwner pubkey

/-- Whether a key stays an admin of every group. -/
def isPermanentAdmin (authority : GroupAuthority) (pubkey : PublicKeyHex) : Bool :=
  authority.isAdmin pubkey

end GroupAuthority

/-- Whoever writes to a group has to have authenticated as the author. -/
def requireGroupAuthAsAuthor (event : PocketEvent) (eventClass : GroupEventClass)
    (auth : GroupAuthContext) : Except GroupError Unit := do
  if eventClass = .nonGroup then
    return ()
  else if auth.contains (← GroupEventView.pubkey event) then
    return ()
  else
    throw (.authRequired "group event author must authenticate with AUTH")

/-- The error that does not tell whether the group is there. -/
def nonEnumeratingGroupError : GroupError :=
  .restricted .groupUnavailable "group is unavailable"

/-! ## The write policy -/

/-- What a check of a write ends with, when it does not fail. -/
inductive GroupWriteDecision where
  | accept | ignoreNonGroup
deriving DecidableEq

/-- What the write policy looks at. -/
structure GroupWritePolicy where
  projection : GroupProjection
  authority : GroupAuthority
  policy : GroupPolicyConfig

/-- Whether an event names a role. -/
def hasRoleTag (event : PocketEvent) : Except GroupError Bool :=
  visitTags event (fun found tag => .ok (found || tag.isNamed "role")) false

/-- The capability a moderation event needs. -/
def requiredCapability (kind : Nat) (event : PocketEvent) : Except GroupError (Option Capability) :=
  match kind with
  | kindGroupPutUser => do
    if ← hasRoleTag event then
      return some .manageRoles
    else
      return some .manageMembers
  | kindGroupRemoveUser => .ok (some .manageMembers)
  | kindGroupEditMetadata => .ok (some .manageMetadata)
  | kindGroupDeleteEvent => .ok (some .deleteEvents)
  | kindGroupDeleteGroup => .ok (some .deleteGroup)
  | kindGroupCreateInvite => .ok (some .createInvites)
  | _ => .ok none

/-- The key a target tag names, or the error that tells which tag is malformed. -/
def parseTargetPubkey (name : String) (value : Text) : Except GroupError PublicKeyHex :=
  (PublicKeyHex.new value).mapError fun reason =>
    .invalid .malformedTargetTag s!"malformed {name} target tag: {reason}"

/-- The key in the first tag of a name. -/
def targetPubkey (event : PocketEvent) (tagName : String) : Except GroupError PublicKeyHex :=
  lastTargetTag tagName (parseTargetPubkey tagName) event

namespace GroupWritePolicy

variable (policy : GroupWritePolicy)

/-- Whether a key is a member's and not a removed one's. -/
def isCurrentMember (groupId : GroupId) (pubkey : PublicKeyHex) : Bool :=
  (policy.projection.member groupId pubkey).any fun member => member.status == .member

/-- Whether a reader may read a group: everyone if it is neither private nor hidden, else its
members and the admins. -/
def canReadGroup (groupId : GroupId) (reader : Option PublicKeyHex) : Bool :=
  match reader with
  | none => false
  | some reader => policy.authority.isAdmin reader || policy.isCurrentMember groupId reader

/-- Whether a member holds the role of the relay override, or is an admin. -/
def hasRelayOverride (groupId : GroupId) (pubkey : PublicKeyHex) : Bool :=
  if policy.authority.isAdmin pubkey then
    true
  else
    ((policy.projection.member groupId pubkey).filter fun member => member.status == .member).any
      fun member => member.roles.contains RoleName.permanentRelayOverride

/-- Whether a key is protected from removal. -/
def isProtectedAdmin (groupId : GroupId) (pubkey : PublicKeyHex) : Bool :=
  policy.authority.isPermanentAdmin pubkey || policy.hasRelayOverride groupId pubkey

/-- The group, if it is there, is in use and has no tombstone. -/
def requireActiveGroup (groupId : GroupId) : Except GroupError GroupState :=
  match policy.projection.group groupId with
  | none => .error nonEnumeratingGroupError
  | some group =>
    if group.lifecycle = .deleted ∨ (policy.projection.tombstone groupId).isSome then
      .error (.blocked .groupDeleted "group is deleted")
    else
      .ok group

/-- What the roles of a member give it. -/
def actorCapabilities (groupId : GroupId) (actor : PublicKeyHex) :
    Except GroupError CapabilitySet :=
  match policy.projection.member groupId actor with
  | none => .ok ∅
  | some member =>
    if member.status ≠ .member then
      .ok ∅
    else
      let definitions := (policy.projection.roles.toList.filter
        fun entry => (ofLex entry.1).1 == groupId).map fun entry => entry.2.definition
      resolveCapabilities definitions member.roles.toList

/-- Refuses a write whose author has not the capability for it. -/
def requireCapability (groupId : GroupId) (actor : PublicKeyHex) (required : Capability) :
    Except GroupError Unit := do
  if policy.authority.isAdmin actor then
    return ()
  else
    let capabilities ← policy.actorCapabilities groupId actor
    if capabilities.contains required then
      return ()
    else
      throw (.restricted .missingCapability s!"missing group capability {required.asStr}")

/-- `check_create_group`: the group may not be there yet. -/
def checkCreateGroup (event : PocketEvent) (groupId : GroupId) :
    Except GroupError GroupWriteDecision := do
  if !policy.authority.isOwner (← GroupEventView.pubkey event) then
    throw (.restricted .missingCapability "group creation is restricted to relay owners")
  else if (policy.projection.tombstone groupId).isSome then
    throw (.blocked .groupDeleted "group is deleted")
  else if (policy.projection.group groupId).isSome then
    throw (.invalid .groupAlreadyExists "group already exists")
  else
    return .accept

/-- `check_join`: the group is open, or an invite is shown, and the author is no member yet. -/
def checkJoin (event : PocketEvent) (groupId : GroupId) : Except GroupError GroupWriteDecision := do
  let group ← policy.requireActiveGroup groupId
  if policy.isCurrentMember groupId (← GroupEventView.pubkey event) then
    throw (.duplicate .duplicateMember "group member already exists")
  else if group.metadata.closed || !policy.policy.publicJoin then
    throw nonEnumeratingGroupError
  else
    return .accept

/-- `check_leave`: the author is a member and no protected admin. -/
def checkLeave (event : PocketEvent) (groupId : GroupId) :
    Except GroupError GroupWriteDecision := do
  let _ ← policy.requireActiveGroup groupId
  if !policy.isCurrentMember groupId (← GroupEventView.pubkey event) then
    throw (.duplicate .duplicateMember "group member does not exist")
  else
    return .accept

/-- Whether a group takes an event of a kind. -/
def checkSupportedKind (kind : Kind) : SupportedKinds → Except GroupError GroupWriteDecision
  | .unspecifiedAll => .ok .accept
  | .none =>
    .error (.restricted .unsupportedGroupKind "group does not accept normal event kinds")
  | .only kinds =>
    if kinds.contains kind then
      .ok .accept
    else
      .error (.restricted .unsupportedGroupKind "event kind is not supported by this group")

/-- `check_normal_event`: the author may write to the group. -/
def checkNormalEvent (event : PocketEvent) (groupId : GroupId) :
    Except GroupError GroupWriteDecision := do
  let group ← policy.requireActiveGroup groupId
  match kindU32 event with
  | kindGroupJoinRequest => policy.checkJoin event groupId
  | kindGroupLeaveRequest => policy.checkLeave event groupId
  | _ =>
    let actor ← GroupEventView.pubkey event
    if group.metadata.restricted && !policy.canReadGroup groupId (some actor) then
      throw nonEnumeratingGroupError
    else
      checkSupportedKind (← GroupEventView.kind event) group.metadata.supportedKinds

/-- The check of a removal's target; other kinds pass. -/
def checkRemovalTarget (event : PocketEvent) (kind : Nat) (groupId : GroupId) :
    Except GroupError Unit := do
  if kind = kindGroupRemoveUser then
    let target ← targetPubkey event "p"
    if policy.isProtectedAdmin groupId target then
      throw (.restricted .missingCapability "permanent group admins cannot be removed")

/-- The check of the capability a kind needs. -/
def checkRequiredCapability (event : PocketEvent) (kind : Nat) (groupId : GroupId)
    (actor : PublicKeyHex) : Except GroupError Unit := do
  match ← requiredCapability kind event with
  | some required => policy.requireCapability groupId actor required
  | none => return ()

/-- `check_moderation_event`, by the kind of the event. -/
def checkModerationEvent (event : PocketEvent) (kind : Nat) (groupId : GroupId) :
    Except GroupError GroupWriteDecision := do
  if kind = kindGroupCreateGroup then
    policy.checkCreateGroup event groupId
  else
    let group ← policy.requireActiveGroup groupId
    if kind = kindGroupCreateInvite && !policy.policy.invitesEnabled then
      throw (.restricted .missingCapability "invites not enabled")
    else
      let actor ← GroupEventView.pubkey event
      policy.checkRequiredCapability event kind groupId actor
      policy.checkRemovalTarget event kind groupId
      if kind = kindGroupEditMetadata && group.metadata.hidden &&
          !policy.canReadGroup groupId (some actor) then
        throw nonEnumeratingGroupError
      else
        return .accept

/-- **`check_event`**: whether a write to a group is taken, by the class of its event. -/
def checkEvent (event : PocketEvent) (eventClass : GroupEventClass) (auth : GroupAuthContext) :
    Except GroupError GroupWriteDecision := do
  requireGroupAuthAsAuthor event eventClass auth
  match eventClass with
  | .nonGroup => return .ignoreNonGroup
  | .relayGeneratedSnapshot _ _ =>
    throw (.blocked .directRelayGeneratedSubmission
      "relay-generated group state events cannot be submitted by clients")
  | .moderation kind groupId => policy.checkModerationEvent event kind.value groupId
  | .normal groupId => policy.checkNormalEvent event groupId

/-! ## What an accepted write has passed -/

variable {policy} {event : PocketEvent} {groupId : GroupId} {kind : Kind} {auth : GroupAuthContext}

/-- What a group has to be to be active. -/
theorem requireActiveGroup_eq_ok {group : GroupState} :
    policy.requireActiveGroup groupId = .ok group ↔
      policy.projection.group groupId = some group ∧ group.lifecycle = .active ∧
        policy.projection.tombstone groupId = none := by
  unfold requireActiveGroup
  cases hgroup : policy.projection.group groupId with
  | none => simp
  | some found =>
    dsimp only
    split
    · next hdeleted =>
      refine ⟨fun h => (nomatch h), fun ⟨heq, hactive, hnone⟩ => ?_⟩
      cases heq
      rcases hdeleted with hdeleted | hdeleted
      · cases hactive.symm.trans hdeleted
      · rw [hnone] at hdeleted
        cases hdeleted
    · next hactive =>
      obtain ⟨hlifecycle, htombstone⟩ := not_or.mp hactive
      have hstate : found.lifecycle = .active := by
        cases hstate : found.lifecycle with
        | active => rfl
        | deleted => exact absurd hstate hlifecycle
      refine ⟨fun h => ?_, fun ⟨heq, _⟩ => ?_⟩
      · cases h
        exact ⟨rfl, hstate, Option.not_isSome_iff_eq_none.mp htombstone⟩
      · cases heq
        rfl

/-- The checks of an accepted moderation event that is no create. -/
theorem moderation_accepted (h : (policy.checkEvent event (.moderation kind groupId) auth).Succeeds)
    (hkind : kind.value ≠ kindGroupCreateGroup) :
    (∃ group, policy.requireActiveGroup groupId = .ok group) ∧
      policy.checkRequiredCapability event kind.value groupId event.pubkey = .ok () ∧
      policy.checkRemovalTarget event kind.value groupId = .ok () := by
  obtain ⟨decision, h⟩ := h
  obtain ⟨_, _, h⟩ := Except.bind_eq_ok.mp h
  simp only [checkModerationEvent, hkind, if_false] at h
  obtain ⟨group, hgroup, h⟩ := Except.bind_eq_ok.mp h
  split at h
  · cases h
  rw [GroupEventView.pubkey_eq, Except.ok_bind] at h
  obtain ⟨_, hcapability, h⟩ := Except.bind_eq_ok.mp h
  obtain ⟨_, hremoval, _⟩ := Except.bind_eq_ok.mp h
  exact ⟨⟨group, hgroup⟩, hcapability, hremoval⟩

/-- The target of an accepted removal is no protected admin. -/
theorem target_of_accepted_removal
    (h : (policy.checkEvent event (.moderation kind groupId) auth).Succeeds)
    (hkind : kind.value = kindGroupRemoveUser) : ∃ target, targetPubkey event "p" = .ok target ∧
      policy.isProtectedAdmin groupId target = false := by
  have hne : kind.value ≠ kindGroupCreateGroup := by
    rw [hkind]
    decide
  obtain ⟨_, _, hremoval⟩ := moderation_accepted h hne
  unfold checkRemovalTarget at hremoval
  rw [if_pos hkind] at hremoval
  obtain ⟨target, htarget, hremoval⟩ := Except.bind_eq_ok.mp hremoval
  refine ⟨target, htarget, ?_⟩
  split at hremoval
  · cases hremoval
  · next hnot => exact Bool.not_eq_true _ ▸ hnot

end GroupWritePolicy

/-! ## The read gate -/

/-- What the gate decides about an event: it is shown, or it is hidden with or without a hint. -/
inductive GroupReadDecision where
  | visible | hidden
deriving DecidableEq

/-- What the read gate looks at. -/
structure GroupReadGate where
  projection : GroupProjection
  authority : GroupAuthority

/-- The snapshots that everyone may read of a private group. -/
def isPublicWhenPrivateSnapshot (kind : Nat) : Bool :=
  kind == kindGroupMetadata || kind == kindGroupAdmins

namespace GroupReadGate

variable (gate : GroupReadGate)

/-- Whether a reader may read a group that is in use. -/
def canReadGroup (groupId : GroupId) (reader : Option PublicKeyHex) : Bool :=
  match reader with
  | none => false
  | some reader =>
    if gate.authority.isAdmin reader then
      true
    else
      (gate.projection.member groupId reader).any fun member => member.status == .member

/-- What the gate decides about an event of users. -/
def screenNormalEvent (groupId : GroupId) (reader : Option PublicKeyHex) : GroupReadDecision :=
  match gate.projection.group groupId with
  | none => .hidden
  | some group =>
    if (gate.projection.tombstone groupId).isSome then
      .hidden
    else if (group.metadata.hidden || group.metadata.isPrivate) &&
        !gate.canReadGroup groupId reader then
      .hidden
    else
      .visible

/-- What the gate decides about the marker of a deleted group. -/
def screenDeleteGroupMarker (eventId : EventId) (groupId : GroupId)
    (reader : Option PublicKeyHex) : GroupReadDecision :=
  match gate.projection.group groupId with
  | none => .hidden
  | some group =>
    if (gate.projection.tombstone groupId).all fun tombstone =>
        tombstone.deleteEventId != eventId then
      gate.screenNormalEvent groupId reader
    else if (group.metadata.hidden || group.metadata.isPrivate) &&
        !gate.canReadGroup groupId reader then
      .hidden
    else
      .visible

/-- What the gate decides about a snapshot of the relay. -/
def screenSnapshotEvent (kind : Nat) (groupId : GroupId) (reader : Option PublicKeyHex) :
    GroupReadDecision :=
  match gate.projection.group groupId with
  | none => .hidden
  | some group =>
    if (gate.projection.tombstone groupId).isSome then
      .hidden
    else if group.metadata.hidden && !gate.canReadGroup groupId reader then
      .hidden
    else if group.metadata.isPrivate && !isPublicWhenPrivateSnapshot kind &&
        !gate.canReadGroup groupId reader then
      .hidden
    else
      .visible

/-- **`screen_event`**: what the gate decides about an event, by its class. -/
def screenEvent (event : PocketEvent) (reader : Option PublicKeyHex) (limits : GroupLimitsConfig) :
    Except GroupError GroupReadDecision := do
  let eventId ← GroupEventView.id event
  if (gate.projection.eventDeletion eventId).isSome then
    return .hidden
  else
    match ← classifyGroupEvent event limits with
    | .nonGroup => return .visible
    | .normal groupId => return gate.screenNormalEvent groupId reader
    | .moderation _ groupId =>
      if kindU32 event = kindGroupDeleteGroup then
        return gate.screenDeleteGroupMarker eventId groupId reader
      else
        return gate.screenNormalEvent groupId reader
    | .relayGeneratedSnapshot kind groupId =>
      return gate.screenSnapshotEvent kind.value groupId reader

end GroupReadGate

end Tangle
