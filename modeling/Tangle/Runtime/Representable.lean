import Mathlib.Data.Set.Card
import Tangle.Runtime.AcceptedEvents

/-!
# Which generated events can be built

A planned payload becomes an event when Pocket takes its tag section. Metadata is checked when it is
planned, and nothing else is: the lists of admins and of members hold one tag for each key, and no
bound of the configuration keeps them within the 65535 bytes of a section. A list can be signed
exactly when the number of its keys is small enough (`plannedRecord_signs_iff`).
-/

namespace Tangle

/-! ## The keys a list names -/

namespace GroupProjection

/-- A current member of the group. -/
def IsMember (projection : GroupProjection) (groupId : GroupId) (pubkey : PublicKeyHex) : Prop :=
  ∃ member, projection.member groupId pubkey = some member ∧ member.status = .member

/-- An owner or an admin of the relay, or a current member who holds the override role. -/
def IsListedAdmin (projection : GroupProjection) (authority : GroupAuthority) (groupId : GroupId)
    (pubkey : PublicKeyHex) : Prop :=
  pubkey ∈ authority.ownerPubkeys ∨ pubkey ∈ authority.adminPubkeys ∨
    ∃ member, projection.member groupId pubkey = some member ∧ member.status = .member ∧
      member.roles.contains RoleName.permanentRelayOverride = true

end GroupProjection

/-- A list that names the members of a set once each is as long as the set is large. -/
theorem length_eq_ncard {α : Type} [DecidableEq α] {l : List α} {P : α → Prop} (hnodup : l.Nodup)
    (h : ∀ a, a ∈ l ↔ P a) : l.length = {a | P a}.ncard := by
  have hset : {a | P a} = (l.toFinset : Set α) := by
    ext a
    rw [List.coe_toFinset]
    exact (h a).symm
  rw [hset, Set.ncard_coe_finset, List.toFinset_card_of_nodup hnodup]

/-- The keys of the entries of one group, as the lists take them from the member map. -/
theorem nodup_groupKeys {members : BTreeMap (GroupId ×ₗ PublicKeyHex) MemberState}
    {groupId : GroupId} {keep : (GroupId ×ₗ PublicKeyHex) × MemberState → Bool}
    (hgroup : ∀ entry, keep entry = true → (ofLex entry.1).1 = groupId) :
    ((members.toList.filter keep).map fun entry => (ofLex entry.1).2).Nodup := by
  have hkeys : ((members.toList.filter keep).map Prod.fst).Nodup :=
    BTreeMap.nodup_keys_toList.sublist (List.filter_sublist.map _)
  have hinj : ∀ key ∈ (members.toList.filter keep).map Prod.fst,
      ∀ key' ∈ (members.toList.filter keep).map Prod.fst,
        (ofLex key).2 = (ofLex key').2 → key = key' := by
    intro key hkey key' hkey' heq
    obtain ⟨entry, hentry, rfl⟩ := List.mem_map.mp hkey
    obtain ⟨other, hother, rfl⟩ := List.mem_map.mp hkey'
    have hfst : (ofLex entry.1).1 = (ofLex other.1).1 :=
      (hgroup entry (List.mem_filter.mp hentry).2).trans
        (hgroup other (List.mem_filter.mp hother).2).symm
    exact congrArg toLex (Prod.ext hfst heq)
  have hmap := hkeys.map_on hinj
  rwa [List.map_map] at hmap

namespace GroupGeneratedEventBuilder

variable {projection : GroupProjection} {authority : GroupAuthority} {groupId : GroupId}
  {pubkey : PublicKeyHex}

/-- The keys of a member list are those of the group's members. -/
theorem mem_memberPubkeys :
    pubkey ∈ memberPubkeys groupId projection ↔ projection.IsMember groupId pubkey := by
  unfold memberPubkeys GroupProjection.IsMember
  rw [List.mem_insertionSort, List.mem_map]
  constructor
  · rintro ⟨⟨key, member⟩, hmem, hpubkey⟩
    obtain ⟨hlookup, hkeep⟩ := List.mem_filter.mp hmem
    simp only [Bool.and_eq_true, beq_iff_eq] at hkeep hpubkey
    obtain rfl : key = toLex (groupId, pubkey) := congrArg toLex (Prod.ext hkeep.1 hpubkey)
    exact ⟨member, BTreeMap.mem_toList.mp hlookup, hkeep.2⟩
  · rintro ⟨member, hmember, hstatus⟩
    refine ⟨(toLex (groupId, pubkey), member), List.mem_filter.mpr ⟨?_, ?_⟩, rfl⟩
    · exact BTreeMap.mem_toList.mpr hmember
    · simp [hstatus]

/-- The admins by the relay's own roles are those that hold such a role. -/
theorem mem_overrideAdmins : pubkey ∈ overrideAdmins groupId projection ↔
    ∃ member, projection.member groupId pubkey = some member ∧ member.status = .member ∧
      member.roles.contains RoleName.permanentRelayOverride = true := by
  unfold overrideAdmins
  rw [List.mem_map]
  constructor
  · rintro ⟨⟨key, member⟩, hmem, hpubkey⟩
    obtain ⟨hlookup, hkeep⟩ := List.mem_filter.mp hmem
    simp only [Bool.and_eq_true, beq_iff_eq] at hkeep hpubkey
    obtain rfl : key = toLex (groupId, pubkey) := congrArg toLex (Prod.ext hkeep.1.1 hpubkey)
    exact ⟨member, BTreeMap.mem_toList.mp hlookup, hkeep.1.2, hkeep.2⟩
  · rintro ⟨member, hmember, hstatus, hrole⟩
    refine ⟨(toLex (groupId, pubkey), member), List.mem_filter.mpr ⟨?_, ?_⟩, rfl⟩
    · exact BTreeMap.mem_toList.mpr hmember
    · simp only [hstatus, hrole, Bool.and_true, beq_self_eq_true]
      exact beq_self_eq_true _

/-- The keys of an admin list are those of the group's admins. -/
theorem mem_adminPubkeys : pubkey ∈ adminPubkeys groupId projection authority ↔
    projection.IsListedAdmin authority groupId pubkey := by
  have hfold : ∀ (keys : List PublicKeyHex) (start : BTreeSet PublicKeyHex),
      pubkey ∈ keys.foldl (fun admins key => admins.insert key) start ↔
        pubkey ∈ keys ∨ pubkey ∈ start := by
    intro keys
    induction keys with
    | nil => simp
    | cons key rest ih =>
      intro start
      rw [List.foldl_cons, ih, BTreeSet.mem_insert, List.mem_cons, @eq_comm _ key]
      exact or_left_comm.trans or_assoc.symm
  unfold adminPubkeys GroupProjection.IsListedAdmin
  rw [hfold, List.mem_append, List.mem_append, BTreeSet.mem_toList, BTreeSet.mem_toList,
    mem_overrideAdmins, or_iff_left BTreeSet.not_mem_empty, or_assoc]

/-- A member list is as long as the group has members. -/
theorem length_memberPubkeys :
    (memberPubkeys groupId projection).length = {key | projection.IsMember groupId key}.ncard := by
  refine length_eq_ncard ?_ fun key => mem_memberPubkeys
  refine (List.perm_insertionSort _ _).nodup_iff.mpr
    (@nodup_groupKeys projection.members groupId _ fun entry hentry => ?_)
  simp only [Bool.and_eq_true, beq_iff_eq] at hentry
  exact hentry.1

/-- An admin list is as long as the group has admins. -/
theorem length_adminPubkeys : (adminPubkeys groupId projection authority).toList.length =
    {key | projection.IsListedAdmin authority groupId key}.ncard :=
  length_eq_ncard BTreeSet.nodup_toList fun _ => BTreeSet.mem_toList.trans mem_adminPubkeys

end GroupGeneratedEventBuilder

/-! ## Sizes -/

/-- The bytes of the tag section of a list of keys: the group's tag, and a tag for each key. -/
def TagCodec.keyListSize (codec : TagCodec) (groupId : GroupId) (count : Nat) : Nat :=
  codec.header + (codec.perTag + 2 * codec.perValue + 1 + groupId.text.byteLen) +
    count * (codec.perTag + 2 * codec.perValue + 65)

section
variable {codec : TagCodec} {groupId : GroupId}

/-- The size of a tag for one key. -/
theorem textTagSize_key (pubkey : PublicKeyHex) : codec.textTagSize ["p".toList, pubkey.text] =
    codec.perTag + 2 * codec.perValue + 65 := by
  have hp : Text.byteLen "p".toList = 1 := by decide
  simp only [TagCodec.textTagSize, List.map_cons, List.map_nil, List.sum_cons, List.sum_nil, hp,
    pubkey.isHex.byteLen]
  omega

/-- The size of a tag that names the group. -/
theorem textTagSize_group {name : Text} (hname : name.byteLen = 1) :
    codec.textTagSize [name, groupId.text] =
      codec.perTag + 2 * codec.perValue + 1 + groupId.text.byteLen := by
  simp only [TagCodec.textTagSize, List.map_cons, List.map_nil, List.sum_cons, List.sum_nil, hname]
  omega

/-- The size of a list's tags is that of its keys. -/
theorem size_pubkeyListTags (pubkeys : List PublicKeyHex) :
    codec.size (toTagValues (pubkeyListTags groupId pubkeys)) =
      codec.keyListSize groupId pubkeys.length := by
  have hkeys : codec.textTagsSize (pubkeys.map fun pubkey => ["p".toList, pubkey.text]) =
      pubkeys.length * (codec.perTag + 2 * codec.perValue + 65) := by
    induction pubkeys with
    | nil => simp
    | cons pubkey rest ih =>
      rw [List.map_cons, TagCodec.textTagsSize_cons, textTagSize_key, ih, List.length_cons,
        Nat.add_mul, Nat.one_mul, Nat.add_comm]
  rw [TagCodec.size_toTagValues, pubkeyListTags, TagCodec.textTagsSize_cons, hkeys,
    textTagSize_group (by decide), TagCodec.keyListSize]
  omega

/-- The size of an addition or removal's tags is that of a list of one key. -/
theorem size_membershipTags (pubkey : PublicKeyHex) :
    codec.size (toTagValues [["h".toList, groupId.text], ["p".toList, pubkey.text]]) =
      codec.keyListSize groupId 1 := by
  rw [TagCodec.size_toTagValues, TagCodec.textTagsSize_cons, TagCodec.textTagsSize_cons,
    TagCodec.textTagsSize_nil, textTagSize_key, textTagSize_group (by decide),
    TagCodec.keyListSize]
  omega

end

/-! ## What is planned -/

/-- What a pending record may hold, by its effect. -/
inductive PlannedPayload (pocket : PocketTypes) (projection : GroupProjection)
    (authority : GroupAuthority) : GroupOutboxKey → GroupOutboxPayload → Prop
  | metadata {key group createdAt payload} : key.effect = .metadataSnapshot →
      GroupGeneratedEventBuilder.metadataSnapshotPayload pocket group createdAt = .ok payload →
      PlannedPayload pocket projection authority key payload
  | admins {key createdAt} : key.effect = .adminListSnapshot →
      PlannedPayload pocket projection authority key
        (GroupGeneratedEventBuilder.adminListSnapshotPayload key.groupId projection authority
          createdAt)
  | members {key createdAt cap payload} : key.effect = .memberListSnapshot →
      GroupGeneratedEventBuilder.memberListSnapshotPayload key.groupId projection createdAt cap =
        some payload → PlannedPayload pocket projection authority key payload
  | joined {key pubkey createdAt} : key.effect = .joinAccepted →
      PlannedPayload pocket projection authority key
        (GroupGeneratedEventBuilder.joinAcceptedPayload key.groupId pubkey createdAt)
  | left {key pubkey createdAt} : key.effect = .leaveAccepted →
      PlannedPayload pocket projection authority key
        (GroupGeneratedEventBuilder.leaveAcceptedPayload key.groupId pubkey createdAt)

section
variable {pocket : PocketTypes} {projection : GroupProjection} {authority : GroupAuthority}
  {event : PocketEvent} {groupId : GroupId} {record : GroupOutboxRecord}

/-- The payload of a metadata record is one of those planned. -/
theorem PlannedPayload.of_metadataSnapshotRecord {group : GroupState}
    (h : metadataSnapshotRecord pocket event groupId group = .ok record) :
    PlannedPayload pocket projection authority record.key record.payload := by
  obtain ⟨payload, hpayload, h⟩ := Except.bind_eq_ok.mp h
  obtain ⟨id, _, h⟩ := Except.bind_eq_ok.mp h
  cases h
  exact .metadata rfl hpayload

/-- The payload of an admins record is one of those planned. -/
theorem PlannedPayload.of_adminRecord {createdAt : UnixTimestamp}
    (h : pendingRecord event .adminListSnapshot groupId none
      (GroupGeneratedEventBuilder.adminListSnapshotPayload groupId projection authority createdAt)
        = .ok record) : PlannedPayload pocket projection authority record.key record.payload := by
  obtain ⟨id, _, h⟩ := Except.bind_eq_ok.mp h
  cases h
  exact .admins rfl

/-- The pending records of a membership change: the members, and perhaps the admins. -/
theorem PlannedPayload.of_memberSnapshotRecords {createdAt : UnixTimestamp} {cap : UInt32}
    {before : Option Bool} {records : List GroupOutboxRecord}
    (h : memberSnapshotRecords event groupId projection authority createdAt cap before =
      .ok records) (hrecord : record ∈ records) (hpending : record.status = .pending) :
    PlannedPayload pocket projection authority record.key record.payload := by
  obtain ⟨members, hmembers, h⟩ := Except.bind_eq_ok.mp h
  have hmember : ∀ record ∈ members, record.status = .pending →
      PlannedPayload pocket projection authority record.key record.payload := by
    intro record hrecord hpending
    obtain ⟨id, _, hmembers⟩ := Except.bind_eq_ok.mp hmembers
    dsimp only at hmembers
    split at hmembers
    · next payload hpayload =>
      cases hmembers
      cases List.mem_singleton.mp hrecord
      exact .members rfl hpayload
    · cases hmembers
      cases List.mem_singleton.mp hrecord
      cases hpending
  cases before with
  | none => cases h; exact hmember record hrecord hpending
  | some before =>
    obtain ⟨target, _, h⟩ := Except.bind_eq_ok.mp h
    dsimp only at h
    split at h
    · obtain ⟨admins, hadmins, h⟩ := Except.bind_eq_ok.mp h
      cases h
      rcases List.mem_append.mp hrecord with hrecord | hrecord
      · exact hmember record hrecord hpending
      · cases List.mem_singleton.mp hrecord
        exact .of_adminRecord hadmins
    · cases h
      exact hmember record hrecord hpending

/-- Every pending record of a plan holds a payload of its effect. -/
theorem PlannedPayload.of_plan {eventClass : GroupEventClass} {cap : UInt32}
    {before : Option Bool} {records : List GroupOutboxRecord}
    (h : planGroupOutboxRecords pocket event eventClass projection authority cap before =
      .ok records) (hrecord : record ∈ records) (hpending : record.status = .pending) :
    PlannedPayload pocket projection authority record.key record.payload := by
  unfold planGroupOutboxRecords at h
  split at h
  · split at h
    · obtain ⟨group, _, h⟩ := Except.bind_eq_ok.mp h
      obtain ⟨metadata, hmetadata, h⟩ := Except.bind_eq_ok.mp h
      obtain ⟨admins, hadmins, h⟩ := Except.bind_eq_ok.mp h
      cases h
      rcases List.mem_pair.mp hrecord with rfl | rfl
      · exact .of_metadataSnapshotRecord hmetadata
      · exact .of_adminRecord hadmins
    · obtain ⟨group, _, h⟩ := Except.bind_eq_ok.mp h
      obtain ⟨metadata, hmetadata, h⟩ := Except.bind_eq_ok.mp h
      cases h
      cases List.mem_singleton.mp hrecord
      exact .of_metadataSnapshotRecord hmetadata
    · exact .of_memberSnapshotRecords h hrecord hpending
    · exact .of_memberSnapshotRecords h hrecord hpending
    · cases h
      cases hrecord
  · split at h
    · obtain ⟨pubkey, _, h⟩ := Except.bind_eq_ok.mp h
      obtain ⟨joined, hjoined, h⟩ := Except.bind_eq_ok.mp h
      cases h
      cases List.mem_singleton.mp hrecord
      obtain ⟨id, _, hjoined⟩ := Except.bind_eq_ok.mp hjoined
      cases hjoined
      exact .joined rfl
    · obtain ⟨pubkey, _, h⟩ := Except.bind_eq_ok.mp h
      obtain ⟨left, hleft, h⟩ := Except.bind_eq_ok.mp h
      cases h
      cases List.mem_singleton.mp hrecord
      obtain ⟨id, _, hleft⟩ := Except.bind_eq_ok.mp hleft
      cases hleft
      exact .left rfl
    · cases h
      cases hrecord
  · cases h
    cases hrecord
  · cases h
    cases hrecord

end

/-! ## What can be signed -/

/-- Signing succeeds when the kind has 16 bits and the tags make a tag section. -/
theorem signPayloadPocket_succeeds_iff {pocket : PocketTypes} {codec : TagCodec}
    (lawful : pocket.Lawful codec) {builder : GroupGeneratedEventBuilder}
    {payload : GroupOutboxPayload}
    (hkey : pocket.publicKey builder.signer.secret = .ok builder.signer.publicKey)
    (hkind : payload.generatedKind < UInt16.size) :
    (builder.signPayloadPocket pocket payload).Succeeds ↔
      codec.size (toTagValues payload.tags) ≤ maxTagSectionBytes := by
  rw [← lawful.ownedTags_iff]
  unfold GroupGeneratedEventBuilder.signPayloadPocket validatePocketTags
  rw [if_neg (not_le.mpr hkind)]
  simp only [Except.succeeds_bind, Except.mapError_eq_ok]
  constructor
  · rintro ⟨_, htags, _⟩
    exact ⟨_, htags⟩
  · rintro ⟨_, htags⟩
    obtain ⟨id, hsign, _, hverify⟩ := @PocketTypes.Lawful.signNew_ok _ _ lawful _ _
      (UInt16.ofNat payload.generatedKind) payload.tags payload.generatedCreatedAt payload.content
      hkey ⟨_, htags⟩
    exact ⟨_, htags, _, hsign, _, hverify, _, rfl⟩

/-- The payload of a key fits in a tag section: the number of keys its list names is small
enough. -/
def Representable (codec : TagCodec) (projection : GroupProjection) (authority : GroupAuthority)
    (key : GroupOutboxKey) : Prop :=
  match key.effect with
  | .adminListSnapshot => codec.keyListSize key.groupId
      {pubkey | projection.IsListedAdmin authority key.groupId pubkey}.ncard ≤ maxTagSectionBytes
  | .memberListSnapshot => codec.keyListSize key.groupId
      {pubkey | projection.IsMember key.groupId pubkey}.ncard ≤ maxTagSectionBytes
  | .joinAccepted | .leaveAccepted => codec.keyListSize key.groupId 1 ≤ maxTagSectionBytes
  | .metadataSnapshot | .roleListSnapshot | .state39004Snapshot => True

/-- A planned payload fits when the number of keys of its list is small enough. -/
theorem PlannedPayload.fits_iff {pocket : PocketTypes} {codec : TagCodec}
    (lawful : pocket.Lawful codec) {projection : GroupProjection} {authority : GroupAuthority}
    {key : GroupOutboxKey} {payload : GroupOutboxPayload}
    (h : PlannedPayload pocket projection authority key payload) :
    payload.generatedKind < UInt16.size ∧
      (codec.size (toTagValues payload.tags) ≤ maxTagSectionBytes ↔
        Representable codec projection authority key) := by
  unfold Representable
  cases h with
  | metadata heffect hpayload =>
    obtain ⟨tags, htags, hpayload⟩ := Except.bind_eq_ok.mp hpayload
    cases hpayload
    obtain ⟨_, hchecked, htags⟩ := Except.bind_eq_ok.mp htags
    cases htags
    rw [heffect]
    exact ⟨(by decide : kindGroupMetadata < UInt16.size), iff_of_true
      ((lawful.ownedTags_iff _).mp ⟨_, Except.mapError_eq_ok.mp hchecked⟩) trivial⟩
  | admins heffect =>
    rw [heffect]
    refine ⟨(by decide : kindGroupAdmins < UInt16.size), ?_⟩
    dsimp only [GroupGeneratedEventBuilder.adminListSnapshotPayload]
    rw [size_pubkeyListTags, GroupGeneratedEventBuilder.length_adminPubkeys]
  | members heffect hpayload =>
    unfold GroupGeneratedEventBuilder.memberListSnapshotPayload at hpayload
    dsimp only at hpayload
    split at hpayload
    · cases hpayload
    · cases hpayload
      rw [heffect]
      refine ⟨(by decide : kindGroupMembers < UInt16.size), ?_⟩
      dsimp only
      rw [size_pubkeyListTags, GroupGeneratedEventBuilder.length_memberPubkeys]
  | joined heffect =>
    rw [heffect]
    refine ⟨(by decide : kindGroupPutUser < UInt16.size), ?_⟩
    dsimp only [GroupGeneratedEventBuilder.joinAcceptedPayload, membershipPayload]
    rw [size_membershipTags]
  | left heffect =>
    rw [heffect]
    refine ⟨(by decide : kindGroupRemoveUser < UInt16.size), ?_⟩
    dsimp only [GroupGeneratedEventBuilder.leaveAcceptedPayload, membershipPayload]
    rw [size_membershipTags]

/-- **When a planned event can be signed.** At every state a relay may be in, a pending record of a
plan can be signed exactly when the list it carries is short enough: the admins for an admin list,
the current members for a member list. Nothing else stands in the way. -/
theorem plannedRecord_signs_iff {relay : Relay} {state : GroupServiceState} {store : PocketStore}
    {event : PocketEvent} {eventClass : GroupEventClass} {projection : GroupProjection}
    {before : Option Bool} {records : List GroupOutboxRecord} {record : GroupOutboxRecord}
    (hreach : relay.Reachable (.up (some state) store))
    (hplan : planGroupOutboxRecords relay.pocket event eventClass projection state.authority
      state.memberSnapshotCap before = .ok records)
    (hrecord : record ∈ records) (hpending : record.status = .pending) :
    (state.builder.signPayloadPocket relay.pocket record.payload).Succeeds ↔
      Representable relay.codec projection state.authority record.key := by
  obtain ⟨hkind, hfits⟩ := (PlannedPayload.of_plan hplan hrecord hpending).fits_iff relay.lawful
  have hsigner := (hreach.fits.2 state rfl).signer
  exact (signPayloadPocket_succeeds_iff relay.lawful hsigner hkind).trans hfits

/-! ## A relay with many owners -/

namespace Sample

/-- A number below the bound is told by its digits. -/
theorem hexDigits_injective {count : Nat} : ∀ {n m : Nat}, n < 16 ^ count → m < 16 ^ count →
    hexDigits count n = hexDigits count m → n = m := by
  have hdigit : ∀ a < 16, ∀ b < 16, Nat.digitChar a = Nat.digitChar b → a = b := by decide
  induction count with
  | zero =>
    intro n m hn hm _
    omega
  | succ count ih =>
    intro n m hn hm h
    obtain ⟨hfirst, hrest⟩ := List.cons.inj h
    rw [Nat.pow_succ] at hn hm
    have hmod := hdigit _ (Nat.mod_lt n (by decide)) _ (Nat.mod_lt m (by decide)) hfirst
    have hdiv := ih (by omega) (by omega) hrest
    omega

/-- So many keys. -/
def keys (count : Nat) : List PublicKeyHex :=
  (List.range count).map fun n => ⟨hexDigits 64 n, isHex64_hexDigits n⟩

/-- No two keys of the sample are equal. -/
theorem nodup_keys {count : Nat} (hcount : count ≤ 16 ^ 64) : (keys count).Nodup := by
  refine List.nodup_range.map_on fun n hn m hm h => ?_
  have hn : n < count := List.mem_range.mp hn
  have hm : m < count := List.mem_range.mp hm
  exact hexDigits_injective (by omega) (by omega) (congrArg Hex64.text h)

/-- The sample configuration with other owners. -/
def ownersConfig (owners : List PublicKeyHex) : GroupRuntimeConfig :=
  { config with ownerPubkeys := owners, valid := config.valid }

/-- The signer of the sample. -/
def signer : RelaySigner :=
  ⟨⟨List.replicate 64 '7', isHex64_sevens⟩, ⟨List.replicate 64 '7', isHex64_sevens⟩⟩

/-- What a first start loads, and the store it leaves. -/
def firstStorage : GroupStorageState :=
  ⟨GroupProjection.new.setCheckpoint (.current none 100), .new⟩

/-- The store that a first start leaves. -/
def firstStore : PocketStore :=
  ⟨[], ∅, ∅, (∅ : BTreeMap Text ExtraValue).insert projectionCheckpointKey
    (ProjectionCheckpoint.current none 100).toJsonBytes⟩

/-- The service after a first start with these owners. -/
def firstState (owners : List PublicKeyHex) : GroupServiceState :=
  .ofStorage (ownersConfig owners) signer firstStorage

/-- A first start, whoever the owners are. -/
theorem firstState_reachable (owners : List PublicKeyHex) :
    relay.Reachable (.up (some (firstState owners)) firstStore) := by
  have hrun : exec relay.db.handle (relay.start (ownersConfig owners) 100) .empty =
      (.ok (some (firstState owners)), firstStore) := rfl
  exact .step .empty trivial (.started hrun)

/-- The event that creates the group. -/
def createEvent : PocketEvent :=
  farmEvent owner 9007 10 []

/-- An owner may create a group on a relay that has none. -/
theorem createEvent_accepted {owners : List PublicKeyHex} (howner : owner ∈ owners) :
    (exec relay.db.handle ((firstState owners).checkEvent createEvent
      (.moderation (kindOf 9007) farm) (authAs owner)) firstStore).1 = .ok () := by
  have hauth : requireGroupAuthAsAuthor createEvent (.moderation (kindOf 9007) farm)
      (authAs owner) = .ok () := by decide +kernel
  have hisOwner : (firstState owners).authority.isOwner createEvent.pubkey = true := by
    have hmem : createEvent.pubkey ∈ (firstState owners).authority.ownerPubkeys :=
      BTreeSet.mem_ofList.mpr howner
    exact Std.ExtTreeSet.contains_iff_mem.mpr hmem
  have hpolicy : (firstState owners).writePolicy.checkEvent createEvent
      (.moderation (kindOf 9007) farm) (authAs owner) = .ok .accept := by
    unfold GroupWritePolicy.checkEvent
    rw [hauth, Except.ok_bind]
    unfold GroupWritePolicy.checkModerationEvent GroupWritePolicy.checkCreateGroup
    have hkind : (kindOf 9007).value = kindGroupCreateGroup := rfl
    simp only [hkind, if_true, GroupEventView.pubkey_eq, Except.ok_bind,
      GroupServiceState.writePolicy, hisOwner]
    rfl
  unfold GroupServiceState.checkEvent
  rw [exec_bind, exec_liftExcept, hpolicy]
  rfl

/-- The plan of the create: the group's metadata, and its admins. -/
theorem createEvent_plan (owners : List PublicKeyHex) : ∃ projection metadata,
    applyItem .default (firstState owners).projection ⟨createEvent, 8⟩ = .ok projection ∧
      planGroupOutboxRecords relay.pocket createEvent (.moderation (kindOf 9007) farm) projection
          (firstState owners).authority (firstState owners).memberSnapshotCap none =
        .ok [metadata, .pending ⟨createEvent.id, .adminListSnapshot, farm, none⟩
          (GroupGeneratedEventBuilder.adminListSnapshotPayload farm projection
            (firstState owners).authority 10)] := by
  have hmetadata : (applyItem .default firstStorage.projection ⟨createEvent, 8⟩ >>=
      fun projection => requireProjectedGroup projection farm >>= fun group =>
        metadataSnapshotRecord relay.pocket createEvent farm group).Succeeds := by
    decide +kernel
  obtain ⟨projection, happly, hmetadata⟩ := Except.succeeds_bind.mp hmetadata
  obtain ⟨group, hgroup, metadata, hmetadata⟩ := Except.succeeds_bind.mp hmetadata
  refine ⟨projection, metadata, happly, ?_⟩
  unfold planGroupOutboxRecords
  have hkind : (kindOf 9007).value = kindGroupCreateGroup := rfl
  simp only [hkind, hgroup, hmetadata, Except.ok_bind, pendingRecord_eq]
  rfl

/-- Every owner is listed. -/
theorem le_ncard_listedAdmins {owners some : List PublicKeyHex} (hnodup : some.Nodup)
    (hsome : ∀ pubkey ∈ some, pubkey ∈ owners) (projection : GroupProjection) : some.length ≤
      {pubkey | projection.IsListedAdmin (firstState owners).authority farm pubkey}.ncard := by
  rw [← GroupGeneratedEventBuilder.length_adminPubkeys]
  refine (hnodup.subperm fun pubkey hmem => ?_).length_le
  rw [BTreeSet.mem_toList, GroupGeneratedEventBuilder.mem_adminPubkeys]
  exact .inl (BTreeSet.mem_ofList.mpr (hsome pubkey hmem))

end Sample

section
open Sample

/-- With one owner the admin list of a new group is far below the size of a tag section, and the
record that the create owes can be signed. -/
theorem plannedRecord_signs_iff_oneOwner : ∃ projection records record,
    planGroupOutboxRecords relay.pocket createEvent (.moderation (kindOf 9007) farm) projection
        (firstState [owner]).authority (firstState [owner]).memberSnapshotCap none = .ok records ∧
      record ∈ records ∧ record.status = .pending ∧ record.key.effect = .adminListSnapshot ∧
      ((firstState [owner]).builder.signPayloadPocket relay.pocket record.payload).Succeeds ∧
      Representable relay.codec projection (firstState [owner]).authority record.key := by
  have hsigns : (applyItem .default (firstState [owner]).projection ⟨createEvent, 8⟩ >>=
      fun projection => (firstState [owner]).builder.signPayloadPocket relay.pocket
        (GroupGeneratedEventBuilder.adminListSnapshotPayload farm projection
          (firstState [owner]).authority 10)).Succeeds := by
    decide +kernel
  obtain ⟨projection, metadata, happly, hplan⟩ := createEvent_plan [owner]
  rw [happly, Except.ok_bind] at hsigns
  have hrecord := List.mem_cons_of_mem metadata (List.mem_singleton_self (.pending
    ⟨createEvent.id, .adminListSnapshot, farm, none⟩
    (GroupGeneratedEventBuilder.adminListSnapshotPayload farm projection
      (firstState [owner]).authority 10)))
  exact ⟨projection, _, _, hplan, hrecord, rfl, rfl, hsigns,
    (plannedRecord_signs_iff (firstState_reachable [owner]) hplan hrecord rfl).mp hsigns⟩

/-- With 900 owners an accepted create owes an admin list that cannot be signed: each key takes a
tag of its own, and together they take more than the 65535 bytes of an event's tag section. -/
theorem plannedRecord_not_signed :
    relay.Reachable (.up (some (firstState (owner :: keys 900))) firstStore) ∧
      validateClientGroupEventStructure createEvent .default =
        .ok (.moderation (kindOf 9007) farm) ∧
      (exec relay.db.handle ((firstState (owner :: keys 900)).checkEvent createEvent
        (.moderation (kindOf 9007) farm) (authAs owner)) firstStore).1 = .ok () ∧
      ∃ projection records record,
        applyItem .default (firstState (owner :: keys 900)).projection ⟨createEvent, 8⟩ =
          .ok projection ∧
        planGroupOutboxRecords relay.pocket createEvent (.moderation (kindOf 9007) farm) projection
          (firstState (owner :: keys 900)).authority
          (firstState (owner :: keys 900)).memberSnapshotCap none = .ok records ∧
        record ∈ records ∧ record.status = .pending ∧
        ¬((firstState (owner :: keys 900)).builder.signPayloadPocket relay.pocket
          record.payload).Succeeds := by
  obtain ⟨projection, metadata, happly, hplan⟩ := createEvent_plan (owner :: keys 900)
  refine ⟨firstState_reachable _, by decide +kernel, createEvent_accepted (List.mem_cons_self ..),
    projection, _, _, happly, hplan, List.mem_cons_of_mem _ (List.mem_singleton_self _), rfl, ?_⟩
  intro hsigns
  have hsigner : relay.pocket.publicKey signer.secret = .ok signer.publicKey := rfl
  obtain ⟨hkind, hfits⟩ := (@PlannedPayload.admins relay.pocket projection
    (firstState (owner :: keys 900)).authority ⟨createEvent.id, .adminListSnapshot, farm, none⟩ 10
    rfl).fits_iff relay.lawful
  have hsize := hfits.mp ((signPayloadPocket_succeeds_iff relay.lawful hsigner hkind).mp hsigns)
  have hnodup : (keys 900).Nodup := nodup_keys (by decide)
  have hcount := le_ncard_listedAdmins hnodup
    (fun pubkey hmem => List.mem_cons_of_mem owner hmem) projection
  have hlength : (keys 900).length = 900 := by
    rw [keys, List.length_map, List.length_range]
  rw [hlength] at hcount
  have hfarm : farm.text.byteLen = 4 := by decide
  simp only [Representable, TagCodec.keyListSize, relay, codec, hfarm, maxTagSectionBytes] at hsize
  omega

end

end Tangle
