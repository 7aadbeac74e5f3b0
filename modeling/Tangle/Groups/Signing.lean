import Tangle.Groups.Outbox
import Tangle.Groups.Policy
import Tangle.Pocket.Types

/-!
# Generated events

The payloads of the events the relay generates: a group's metadata, its admins, its members, and
the membership a join or a leave amounts to. Metadata tags are checked when the payload is planned;
the others are checked when the payload is signed.
-/

namespace Tangle

/-- The relay's key. -/
structure RelaySigner where
  secret : RelaySecret
  publicKey : PublicKeyHex

/-- `RelaySigner::from_secret_hex`: the key is the one that Pocket derives of the secret. -/
def RelaySigner.fromSecretHex (pocket : PocketTypes) (secret : RelaySecret) :
    Except String RelaySigner := do
  return ⟨secret, ← pocket.publicKey secret⟩

/-- Builds the relay's events. -/
structure GroupGeneratedEventBuilder where
  signer : RelaySigner

/-- `validate_pocket_tags`: Pocket can hold the tags. -/
def validatePocketTags (pocket : PocketTypes) (tags : List (List Text)) :
    Except GroupError Unit :=
  (pocket.ownedTags tags).mapError fun error =>
    .internal s!"generated Pocket tags are invalid: {error}"

/-- The tag of a text of the metadata, when it is there. -/
def metadataTextTag (name : String) (value : Option Text) : List (List Text) :=
  value.elim [] fun value => [[name.toList, value]]

/-- The tag of a flag of the metadata, when it is set. -/
def metadataFlagTag (name : String) (flag : Bool) : List (List Text) :=
  if flag then [[name.toList]] else []

/-- `supported_kinds_tag`: no tag where nothing is said of the kinds, an empty one where there are
none. -/
def supportedKindsTag : SupportedKinds → List (List Text)
  | .unspecifiedAll => []
  | .none => [["supported_kinds".toList]]
  | .only kinds => ["supported_kinds".toList :: kinds.toList.map fun kind => Text.ofNat kind.value]

/-- The tags of a metadata snapshot, before Pocket checks them. -/
def uncheckedMetadataTags (groupId : GroupId) (metadata : GroupMetadata) : List (List Text) :=
  ["d".toList, groupId.text] :: metadataTextTag "name" metadata.name ++
    metadataTextTag "picture" metadata.picture ++ metadataTextTag "about" metadata.about ++
    metadataFlagTag "private" metadata.isPrivate ++
    metadataFlagTag "restricted" metadata.restricted ++ metadataFlagTag "hidden" metadata.hidden ++
    metadataFlagTag "closed" metadata.closed ++ supportedKindsTag metadata.supportedKinds

/-- `metadata_tags`: the tags of a snapshot, if Pocket can hold them. -/
def metadataTags (pocket : PocketTypes) (groupId : GroupId) (metadata : GroupMetadata) :
    Except GroupError (List (List Text)) := do
  let tags := uncheckedMetadataTags groupId metadata
  validatePocketTags pocket tags
  return tags

/-- The tags of a list of keys: the group, then one tag for each key. -/
def pubkeyListTags (groupId : GroupId) (pubkeys : List PublicKeyHex) : List (List Text) :=
  ["d".toList, groupId.text] :: pubkeys.map fun pubkey => ["p".toList, pubkey.text]

/-- `membership_payload`: the group and the member, under one of the two kinds of a membership
change. -/
def membershipPayload (kind : Nat) (groupId : GroupId) (targetPubkey : PublicKeyHex)
    (createdAt : UnixTimestamp) : GroupOutboxPayload :=
  ⟨kind, createdAt, [["h".toList, groupId.text], ["p".toList, targetPubkey.text]], []⟩

namespace GroupGeneratedEventBuilder

/-- `relay_pubkey`. -/
def relayPubkey (builder : GroupGeneratedEventBuilder) : PublicKeyHex :=
  builder.signer.publicKey

/-- `metadata_snapshot_payload`: what the group says of itself at the time of the event that it
follows. -/
def metadataSnapshotPayload (pocket : PocketTypes) (group : GroupState)
    (createdAt : UnixTimestamp) : Except GroupError GroupOutboxPayload := do
  return ⟨kindGroupMetadata, createdAt, ← metadataTags pocket group.id group.metadata, []⟩

/-- The members of a group that hold the permanent relay override. -/
def overrideAdmins (groupId : GroupId) (projection : GroupProjection) : List PublicKeyHex :=
  (projection.members.toList.filter fun entry =>
    (ofLex entry.1).1 == groupId && entry.2.status == .member &&
      entry.2.roles.contains RoleName.permanentRelayOverride).map fun entry => (ofLex entry.1).2

/-- Owners, admins and override admins, in order. -/
def adminPubkeys (groupId : GroupId) (projection : GroupProjection) (authority : GroupAuthority) :
    BTreeSet PublicKeyHex :=
  (authority.ownerPubkeys.toList ++ authority.adminPubkeys.toList ++
    overrideAdmins groupId projection).foldl (fun admins pubkey => admins.insert pubkey) ∅

/-- `admin_list_snapshot_payload`. -/
def adminListSnapshotPayload (groupId : GroupId) (projection : GroupProjection)
    (authority : GroupAuthority) (createdAt : UnixTimestamp) : GroupOutboxPayload :=
  ⟨kindGroupAdmins, createdAt,
    pubkeyListTags groupId (adminPubkeys groupId projection authority).toList, []⟩

/-- The current members of a group, in order. -/
def memberPubkeys (groupId : GroupId) (projection : GroupProjection) : List PublicKeyHex :=
  ((projection.members.toList.filter fun entry =>
    (ofLex entry.1).1 == groupId && entry.2.status == .member).map
      fun entry => (ofLex entry.1).2).insertionSort (· ≤ ·)

/-- `member_list_snapshot_payload`: nothing when the group has more members than the cap allows. -/
def memberListSnapshotPayload (groupId : GroupId) (projection : GroupProjection)
    (createdAt : UnixTimestamp) (cap : UInt32) : Option GroupOutboxPayload :=
  let members := memberPubkeys groupId projection
  if members.length > cap.toNat then
    none
  else
    some ⟨kindGroupMembers, createdAt, pubkeyListTags groupId members, []⟩

/-- `join_accepted_payload`: the relay adds the member. -/
def joinAcceptedPayload (groupId : GroupId) (targetPubkey : PublicKeyHex)
    (createdAt : UnixTimestamp) : GroupOutboxPayload :=
  membershipPayload kindGroupPutUser groupId targetPubkey createdAt

/-- `leave_accepted_payload`: the relay removes the member. -/
def leaveAcceptedPayload (groupId : GroupId) (targetPubkey : PublicKeyHex)
    (createdAt : UnixTimestamp) : GroupOutboxPayload :=
  membershipPayload kindGroupRemoveUser groupId targetPubkey createdAt

/-- `sign_payload_pocket`: the kind must be one that Pocket has, and the tags ones that it can
hold. -/
def signPayloadPocket (pocket : PocketTypes) (builder : GroupGeneratedEventBuilder)
    (payload : GroupOutboxPayload) : Except GroupError PocketEvent := do
  if payload.generatedKind ≥ UInt16.size then
    throw (.internal "generated event kind exceeds Pocket kind")
  else
    let kind := UInt16.ofNat payload.generatedKind
    validatePocketTags pocket payload.tags
    let event ← (pocket.signNew builder.signer.secret kind payload.tags payload.generatedCreatedAt
      payload.content).mapError fun error =>
        .internal s!"Pocket event signing failed: {error}"
    (pocket.verify event).mapError fun error =>
      .internal s!"generated Pocket event failed verification: {error}"
    return event

end GroupGeneratedEventBuilder

end Tangle
