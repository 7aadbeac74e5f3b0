import Tangle.Groups.Sources
import Tangle.Runtime.AcceptedEvents

/-!
# What an event owes

Planning has few outcomes: the metadata, the admins or the members of the group, a membership.
`Owed` lists them, each with what it is planned from (`owed_of_plan`), and the generated events are
those of the payloads (`event_of_sign`), so neither planning nor signing is taken apart again.
-/

namespace Tangle

open GroupEventView

/-- A record that is planned for an event of a class, on a projection. -/
inductive Owed (pocket : PocketTypes) (event : PocketEvent) (eventClass : GroupEventClass)
    (projection : GroupProjection) (authority : GroupAuthority) (cap : UInt32) :
    GroupOutboxRecord → Prop
  | metadata {kind groupId group payload} : eventClass = .moderation kind groupId →
      kind.value = kindGroupCreateGroup ∨ kind.value = kindGroupEditMetadata →
      projection.group groupId = some group →
      GroupGeneratedEventBuilder.metadataSnapshotPayload pocket group (createdAt event) =
        .ok payload →
      Owed pocket event eventClass projection authority cap
        (.pending ⟨event.id, .metadataSnapshot, groupId, none⟩ payload)
  | admins {kind groupId} : eventClass = .moderation kind groupId →
      kind.value = kindGroupCreateGroup ∨ kind.value = kindGroupPutUser ∨
        kind.value = kindGroupRemoveUser →
      Owed pocket event eventClass projection authority cap
        (.pending ⟨event.id, .adminListSnapshot, groupId, none⟩
          (GroupGeneratedEventBuilder.adminListSnapshotPayload groupId projection authority
            (createdAt event)))
  | members {kind groupId payload} : eventClass = .moderation kind groupId →
      kind.value = kindGroupPutUser ∨ kind.value = kindGroupRemoveUser →
      GroupGeneratedEventBuilder.memberListSnapshotPayload groupId projection (createdAt event)
        cap = some payload →
      Owed pocket event eventClass projection authority cap
        (.pending ⟨event.id, .memberListSnapshot, groupId, none⟩ payload)
  | tooManyMembers {kind groupId} : eventClass = .moderation kind groupId →
      kind.value = kindGroupPutUser ∨ kind.value = kindGroupRemoveUser →
      GroupGeneratedEventBuilder.memberListSnapshotPayload groupId projection (createdAt event)
        cap = none →
      Owed pocket event eventClass projection authority cap
        ((GroupOutboxRecord.pending ⟨event.id, .memberListSnapshot, groupId, none⟩
          ⟨kindGroupMembers, createdAt event, [["d".toList, groupId.text]], []⟩).markSkipped
            "member snapshot exceeds configured cap")
  | join {groupId} : eventClass = .normal groupId → kindU32 event = kindGroupJoinRequest →
      Owed pocket event eventClass projection authority cap
        (.pending ⟨event.id, .joinAccepted, groupId, some event.pubkey⟩
          (GroupGeneratedEventBuilder.joinAcceptedPayload groupId event.pubkey (createdAt event)))
  | leave {groupId} : eventClass = .normal groupId → kindU32 event = kindGroupLeaveRequest →
      Owed pocket event eventClass projection authority cap
        (.pending ⟨event.id, .leaveAccepted, groupId, some event.pubkey⟩
          (GroupGeneratedEventBuilder.leaveAcceptedPayload groupId event.pubkey (createdAt event)))

section
variable {pocket : PocketTypes} {event : PocketEvent} {eventClass : GroupEventClass}
  {projection : GroupProjection} {authority : GroupAuthority} {cap : UInt32}
  {before : Option Bool} {records : List GroupOutboxRecord} {record : GroupOutboxRecord}

/-- The metadata record of a group that is there. -/
theorem owed_of_metadata {kind : Kind} {groupId : GroupId} {group : GroupState}
    (hclass : eventClass = .moderation kind groupId)
    (hkind : kind.value = kindGroupCreateGroup ∨ kind.value = kindGroupEditMetadata)
    (hgroup : requireProjectedGroup projection groupId = .ok group)
    (h : metadataSnapshotRecord pocket event groupId group = .ok record) :
    Owed pocket event eventClass projection authority cap record := by
  obtain ⟨payload, hpayload, h⟩ := Except.bind_eq_ok.mp h
  rw [pendingRecord_eq] at h
  cases h
  refine .metadata hclass hkind ?_ hpayload
  unfold requireProjectedGroup at hgroup
  cases hfound : projection.group groupId with
  | none => rw [hfound] at hgroup; cases hgroup
  | some found => rw [hfound] at hgroup; cases hgroup; rfl

/-- The records of a membership change. -/
theorem owed_of_members {kind : Kind} {groupId : GroupId}
    (hclass : eventClass = .moderation kind groupId)
    (hkind : kind.value = kindGroupPutUser ∨ kind.value = kindGroupRemoveUser)
    (h : memberSnapshotRecords event groupId projection authority (createdAt event) cap before =
      .ok records) (hrecord : record ∈ records) :
    Owed pocket event eventClass projection authority cap record := by
  obtain ⟨members, hmembers, h⟩ := Except.bind_eq_ok.mp h
  have hmember : ∀ record ∈ members, Owed pocket event eventClass projection authority cap
      record := by
    unfold memberSnapshotRecord at hmembers
    rw [GroupEventView.id_eq, Except.ok_bind] at hmembers
    intro record hrecord
    split at hmembers
    · next payload hpayload =>
      cases hmembers
      cases List.mem_singleton.mp hrecord
      exact .members hclass hkind hpayload
    · next hnone =>
      cases hmembers
      cases List.mem_singleton.mp hrecord
      exact .tooManyMembers hclass hkind hnone
  cases before with
  | none =>
    cases h
    exact hmember record hrecord
  | some before =>
    obtain ⟨target, _, h⟩ := Except.bind_eq_ok.mp h
    dsimp only at h
    split at h
    · rw [pendingRecord_eq] at h
      cases h
      rcases List.mem_append.mp hrecord with hrecord | hrecord
      · exact hmember record hrecord
      · cases List.mem_singleton.mp hrecord
        exact .admins hclass (.inr hkind)
    · cases h
      exact hmember record hrecord

/-- **Every planned record is owed.** -/
theorem owed_of_plan (h : planGroupOutboxRecords pocket event eventClass projection authority cap
    before = .ok records) (hrecord : record ∈ records) :
    Owed pocket event eventClass projection authority cap record := by
  cases eventClass with
  | nonGroup => cases h; cases hrecord
  | relayGeneratedSnapshot kind groupId => cases h; cases hrecord
  | moderation kind groupId =>
    unfold planGroupOutboxRecords at h
    dsimp only at h
    split at h
    · next hkind =>
      obtain ⟨group, hgroup, h⟩ := Except.bind_eq_ok.mp h
      obtain ⟨metadata, hmetadata, h⟩ := Except.bind_eq_ok.mp h
      rw [pendingRecord_eq] at h
      cases h
      rcases List.mem_cons.mp hrecord with rfl | hrecord
      · exact owed_of_metadata rfl (.inl hkind) hgroup hmetadata
      · cases List.mem_singleton.mp hrecord
        exact .admins rfl (.inl hkind)
    · next hkind =>
      obtain ⟨group, hgroup, h⟩ := Except.bind_eq_ok.mp h
      obtain ⟨metadata, hmetadata, h⟩ := Except.bind_eq_ok.mp h
      cases h
      cases List.mem_singleton.mp hrecord
      exact owed_of_metadata rfl (.inr hkind) hgroup hmetadata
    · next hkind => exact owed_of_members rfl (.inl hkind) h hrecord
    · next hkind => exact owed_of_members rfl (.inr hkind) h hrecord
    · cases h
      cases hrecord
  | normal groupId =>
    unfold planGroupOutboxRecords at h
    dsimp only at h
    split at h
    · next hkind =>
      rw [GroupEventView.pubkey_eq, Except.ok_bind, pendingRecord_eq] at h
      cases h
      cases List.mem_singleton.mp hrecord
      exact .join rfl hkind
    · next hkind =>
      rw [GroupEventView.pubkey_eq, Except.ok_bind, pendingRecord_eq] at h
      cases h
      cases List.mem_singleton.mp hrecord
      exact .leave rfl hkind
    · cases h
      cases hrecord

/-- The payload of an owed record is that of a snapshot or of a membership. -/
theorem Owed.payload_kind (h : Owed pocket event eventClass projection authority cap record) :
    record.payload.generatedKind ∈ [kindGroupMetadata, kindGroupAdmins, kindGroupMembers] ∨
      (∃ groupId, eventClass = .normal groupId ∧ kindU32 event = kindGroupJoinRequest ∧
        record.payload = GroupGeneratedEventBuilder.joinAcceptedPayload groupId event.pubkey
          (createdAt event)) ∨
      ∃ groupId, eventClass = .normal groupId ∧ kindU32 event = kindGroupLeaveRequest ∧
        record.payload = GroupGeneratedEventBuilder.leaveAcceptedPayload groupId event.pubkey
          (createdAt event) := by
  cases h with
  | metadata _ _ _ hpayload =>
    obtain ⟨tags, _, hpayload⟩ := Except.bind_eq_ok.mp hpayload
    cases hpayload
    exact .inl (.head _)
  | admins => exact .inl (.tail _ (.head _))
  | members _ _ hpayload =>
    unfold GroupGeneratedEventBuilder.memberListSnapshotPayload at hpayload
    dsimp only at hpayload
    split at hpayload
    · cases hpayload
    · cases hpayload
      exact .inl (.tail _ (.tail _ (.head _)))
  | tooManyMembers => exact .inl (.tail _ (.tail _ (.head _)))
  | join hclass hkind => exact .inr (.inl ⟨_, hclass, hkind, rfl⟩)
  | leave hclass hkind => exact .inr (.inr ⟨_, hclass, hkind, rfl⟩)

/-- A record is owed to the event's group and named after the event. -/
theorem Owed.key (h : Owed pocket event eventClass projection authority cap record) :
    record.key.sourceEventId = event.id ∧ eventClass.groupId = some record.key.groupId := by
  cases h with
  | metadata hclass => subst hclass; exact ⟨rfl, rfl⟩
  | admins hclass => subst hclass; exact ⟨rfl, rfl⟩
  | members hclass => subst hclass; exact ⟨rfl, rfl⟩
  | tooManyMembers hclass => subst hclass; exact ⟨rfl, rfl⟩
  | join hclass => subst hclass; exact ⟨rfl, rfl⟩
  | leave hclass => subst hclass; exact ⟨rfl, rfl⟩

/-- A planned record is one to store, or skipped. -/
theorem Owed.status (h : Owed pocket event eventClass projection authority cap record) :
    record.status = .pending ∨ ∃ reason, record.status = .skipped reason := by
  cases h with
  | tooManyMembers => exact .inr ⟨_, rfl⟩
  | _ => exact .inl rfl

end

/-- The event of a payload has the payload's fields and the relay's key. -/
theorem event_of_sign {pocket : PocketTypes} {codec : TagCodec} (lawful : pocket.Lawful codec)
    {builder : GroupGeneratedEventBuilder} {payload : GroupOutboxPayload} {event : PocketEvent}
    (hkey : pocket.publicKey builder.signer.secret = .ok builder.signer.publicKey)
    (h : GroupGeneratedEventBuilder.signPayloadPocket pocket builder payload = .ok event) :
    kindU32 event = payload.generatedKind ∧ event.pubkey = builder.signer.publicKey ∧
      event.createdAt = payload.generatedCreatedAt ∧ event.tags = toTagValues payload.tags := by
  unfold GroupGeneratedEventBuilder.signPayloadPocket at h
  split at h
  · cases h
  · next hsize =>
    obtain ⟨_, htags, h⟩ := Except.bind_eq_ok.mp h
    obtain ⟨id, hsign, _⟩ := @PocketTypes.Lawful.signNew_ok _ _ lawful _ _
      (UInt16.ofNat payload.generatedKind) payload.tags payload.generatedCreatedAt payload.content
      hkey (Except.succeeds_mapError.mp ⟨_, htags⟩)
    obtain ⟨signed, hsigned, h⟩ := Except.bind_eq_ok.mp h
    obtain ⟨_, _, h⟩ := Except.bind_eq_ok.mp h
    cases h
    rw [hsign] at hsigned
    cases Except.mapError_eq_ok.mp hsigned
    refine ⟨?_, rfl, rfl, rfl⟩
    exact UInt16.toNat_ofNat_of_lt' (not_le.mp hsize)

/-! ## The group of a generated event -/

/-- An event whose tags are texts decodes to them. -/
theorem GroupEventView.Decodes.of_texts {event : PocketEvent} {tags : List (List Text)}
    (h : event.tags = toTagValues tags) : Decodes event (tags.map GroupEventTag.mk) := by
  have hvalues : ∀ texts : List Text, (texts.map TagValue.text).mapM tagValueUtf8 = .ok texts := by
    intro texts
    induction texts with
    | nil => rfl
    | cons text rest ih =>
      rw [List.map_cons, List.mapM_cons, ih]
      rfl
  unfold Decodes
  rw [h]
  clear h
  induction tags with
  | nil => rfl
  | cons texts rest ih =>
    have htag : GroupEventTag.fromPocket (texts.map .text) = .ok ⟨texts⟩ := by
      rw [GroupEventTag.fromPocket, hvalues]
      rfl
    change (_ :: toTagValues rest).mapM GroupEventTag.fromPocket = _
    rw [List.mapM_cons, htag, Except.ok_bind, ih]
    rfl

/-- Tags of which the first names the group and no other names a group. -/
def NamesGroup (groupId : GroupId) (tags : List (List Text)) : Prop :=
  ∃ (name : GroupTagName) (rest : List (List Text)),
    tags = [name.asStr.toList, groupId.text] :: rest ∧
      ∀ tag ∈ rest, tag.head?.any isGroupIdentityTagName = false

/-- A tag that names no group has neither name. -/
theorem isNamed_of_namesNoGroup {tags : List (List Text)}
    (h : ∀ tag ∈ tags, tag.head?.any isGroupIdentityTagName = false) (name : GroupTagName) :
    ∀ tag ∈ tags.map GroupEventTag.mk, tag.isNamed name.asStr = false := by
  intro tag htag
  obtain ⟨texts, htexts, rfl⟩ := List.mem_map.mp htag
  have hother := h texts htexts
  cases texts with
  | nil => rfl
  | cons text more =>
    rw [List.head?_cons, Option.any_some, isGroupIdentityTagName, Bool.or_eq_false_iff] at hother
    cases name with
    | h => exact hother.1
    | d => exact hother.2

/-- An event with such tags is of that group, if it is of a group. -/
theorem NamesGroup.groupId_of_class {event : PocketEvent} {tags : List (List Text)}
    {limits : GroupLimitsConfig} {eventClass : GroupEventClass} {groupId groupId' : GroupId}
    (h : NamesGroup groupId tags) (htags : event.tags = toTagValues tags)
    (hclass : classifyGroupEvent event limits = .ok eventClass)
    (hgroup : eventClass.groupId = some groupId') : groupId' = groupId := by
  obtain ⟨first, rest, rfl, hrest⟩ := h
  obtain ⟨name, groupTag, htag, rfl⟩ := extractGroupTag_of_class hclass hgroup
  obtain ⟨found, hfound, htag⟩ := Except.bind_eq_ok.mp htag
  rw [(Decodes.of_texts htags).visitTags] at hfound
  obtain ⟨start, hstart, hfound⟩ := Except.foldlM_cons_ok.mp hfound
  -- the tags after the first are passed over
  have hsame : found = start := by
    refine Except.foldlM_invariant (· = start) (fun before tag after htag hbefore hnext => ?_) rfl
      hfound
    rw [isNamed_of_namesNoGroup hrest name tag htag] at hnext
    cases hnext
    exact hbefore
  subst hsame
  split at hstart
  · have hpair : (GroupEventTag.mk [first.asStr.toList, groupId.text]).indexedPair =
        some (first.asStr.toList, groupId.text) := by
      cases first with
      | h => rfl
      | d => rfl
    rw [hpair] at hstart
    obtain ⟨read, hread, hstart⟩ := Except.bind_eq_ok.mp hstart
    cases hstart
    cases htag
    exact GroupId.text_injective (GroupId.newWithMaxBytes_eq_ok.mp hread).1
  · cases hstart
    cases htag

/-- No tag that the metadata makes names a group. -/
theorem namesGroup_uncheckedMetadataTags (groupId : GroupId) (metadata : GroupMetadata) :
    NamesGroup groupId (uncheckedMetadataTags groupId metadata) := by
  have htext : ∀ {name : String} {value : Option Text} {tag : List Text},
      tag ∈ metadataTextTag name value → tag.head? = some name.toList := by
    intro name value tag htag
    cases value with
    | none => cases htag
    | some value => cases List.mem_singleton.mp htag; rfl
  have hflag : ∀ {name : String} {flag : Bool} {tag : List Text},
      tag ∈ metadataFlagTag name flag → tag.head? = some name.toList := by
    intro name flag tag htag
    cases flag with
    | false => cases htag
    | true => cases List.mem_singleton.mp htag; rfl
  have hkinds : ∀ {kinds : SupportedKinds} {tag : List Text},
      tag ∈ supportedKindsTag kinds → tag.head? = some "supported_kinds".toList := by
    intro kinds tag htag
    cases kinds with
    | unspecifiedAll => cases htag
    | none => cases List.mem_singleton.mp htag; rfl
    | only kinds => cases List.mem_singleton.mp htag; rfl
  simp only [uncheckedMetadataTags, List.cons_append]
  refine ⟨.d, _, rfl, fun tag htag => ?_⟩
  simp only [List.mem_append, or_assoc] at htag
  rcases htag with h | h | h | h | h | h | h | h
  · rw [htext h]
    rfl
  · rw [htext h]
    rfl
  · rw [htext h]
    rfl
  · rw [hflag h]
    rfl
  · rw [hflag h]
    rfl
  · rw [hflag h]
    rfl
  · rw [hflag h]
    rfl
  · rw [hkinds h]
    rfl

theorem namesGroup_membershipPayload {kind : Nat} {groupId : GroupId} {pubkey : PublicKeyHex}
    {createdAt : UnixTimestamp} :
    NamesGroup groupId (membershipPayload kind groupId pubkey createdAt).tags := by
  refine ⟨.h, _, rfl, fun tag htag => ?_⟩
  cases List.mem_singleton.mp htag
  rfl

/-- The tags of an owed payload name the group of the record. -/
theorem Owed.namesGroup {pocket : PocketTypes} {event : PocketEvent} {eventClass : GroupEventClass}
    {projection : GroupProjection} {authority : GroupAuthority} {cap : UInt32}
    {record : GroupOutboxRecord}
    (h : Owed pocket event eventClass projection authority cap record)
    (hnamed : ∀ {groupId group}, projection.group groupId = some group → group.id = groupId) :
    NamesGroup record.key.groupId record.payload.tags := by
  have hlist : ∀ groupId pubkeys, NamesGroup groupId (pubkeyListTags groupId pubkeys) := by
    intro groupId pubkeys
    refine ⟨.d, _, rfl, fun tag htag => ?_⟩
    obtain ⟨pubkey, _, rfl⟩ := List.mem_map.mp htag
    rfl
  cases h with
  | metadata _ _ hgroup hpayload =>
    obtain ⟨tags, htags, hpayload⟩ := Except.bind_eq_ok.mp hpayload
    obtain ⟨_, _, htags⟩ := Except.bind_eq_ok.mp htags
    cases hpayload
    cases htags
    cases hnamed hgroup
    exact namesGroup_uncheckedMetadataTags _ _
  | admins => exact hlist _ _
  | members _ _ hpayload =>
    unfold GroupGeneratedEventBuilder.memberListSnapshotPayload at hpayload
    dsimp only at hpayload
    split at hpayload
    · cases hpayload
    · cases hpayload
      exact hlist _ _
  | tooManyMembers => exact hlist _ []
  | join => exact namesGroup_membershipPayload
  | leave => exact namesGroup_membershipPayload

end Tangle
