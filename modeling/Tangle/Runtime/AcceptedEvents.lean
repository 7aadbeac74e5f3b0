import Tangle.Runtime.Fits
import Tangle.Runtime.Script

/-!
# What happens to an accepted event

A client's event passes the structure gate, the write policy and the runtime's own check, and is
then stored. Only after that is it read by the functions that project it and plan what it owes, and
these read more of it than the checks did: every `p` tag, the role tags, the metadata. So there are
events that are stored and then cannot be projected, and `ReadableOnceStored` is what an event must
be like for this not to happen (`acceptedEvent_applies_iff`).
-/

namespace Tangle

open GroupEventView

/-- The target tags of a membership change, beyond what the gate checks: every `p` tag names a key,
not only the last, and every role tag with a value names a role. -/
structure TargetsReadable (tags : List GroupEventTag) : Prop where
  keys : ∀ tag ∈ tags, tag.isNamed "p" = true → ∀ value, tag.value 1 = some value → IsHex64 value
  roles : ∀ tag ∈ tags, tag.isNamed "role" = true → ∀ value, tag.value 1 = some value →
    validateRoleName value = .ok ()

/-- What an event's tags must be like for it to be read once it is stored: the target tags of a
membership change, the metadata of a create or an edit. -/
def ReadableOnceStored (limits : GroupLimitsConfig) (event : PocketEvent) :
    GroupEventClass → Prop
  | .moderation kind _ =>
    match kind.value with
    | kindGroupPutUser | kindGroupRemoveUser =>
      ∃ tags, Decodes event tags ∧ TargetsReadable tags
    | kindGroupCreateGroup | kindGroupEditMetadata =>
      ∃ tags, Decodes event tags ∧ MetadataReadable limits tags
    | _ => True
  | _ => True

/-- The steps that read an event once it is stored, in their order: the target's role before the
change, the change, and the plan of what the event owes. -/
def projectStored (pocket : PocketTypes) (state : GroupServiceState) (event : PocketEvent)
    (eventClass : GroupEventClass) (storeOffset : StoreOffset) :
    Except GroupError (List GroupOutboxRecord) := do
  let beforeMembershipAdmin ← membershipAdminSnapshotState state.projection event eventClass
  let (_, projection) ←
    state.projection.applyCanonicalEvent event storeOffset state.limits
  GroupServiceState.planOutboxRecords pocket { state with projection := projection } event
    eventClass beforeMembershipAdmin

/-! ## Membership changes -/

section
variable {event : PocketEvent}

/-- What the gate says about a target tag, and what the second reading adds. -/
theorem membershipTargetPubkey_succeeds_iff (hgate : requireValidPTag event = .ok ()) :
    (membershipTargetPubkey event).Succeeds ↔ ∃ tags, Decodes event tags ∧
      ∀ tag ∈ tags, tag.isNamed "p" = true → ∀ value, tag.value 1 = some value → IsHex64 value := by
  obtain ⟨value, hvalue, _⟩ := Except.bind_eq_ok.mp hgate
  obtain ⟨tags, htags, hsome, hall⟩ :=
    (lastTargetTag_succeeds_iff (by decide)).mp ⟨value, hvalue⟩
  have hkey : ∀ value : Text, (parseTargetPubkey "p" value).Succeeds ↔ IsHex64 value := by
    intro value
    rw [parseTargetPubkey, Except.succeeds_mapError]
    exact Hex64.new_isOk_iff
  unfold membershipTargetPubkey
  rw [lastTargetTag_succeeds_iff (by decide)]
  refine ⟨fun ⟨tags', htags', _, hkeys⟩ => ⟨tags', htags', fun tag htag hname value hvalue => ?_⟩,
    fun ⟨tags', htags', hkeys⟩ => ⟨tags', htags', ?_, fun tag htag hname => ?_⟩⟩
  · obtain ⟨found, hfound, hparse⟩ := hkeys tag htag hname
    cases hvalue.symm.trans hfound
    exact (hkey value).mp hparse
  · exact htags.unique htags' ▸ hsome
  · obtain ⟨found, hfound, _⟩ := hall tag (htags'.unique htags ▸ htag) hname
    exact ⟨found, hfound, (hkey found).mpr (hkeys tag htag hname found hfound)⟩

/-- The projection reads the last `p` tag, which the gate has checked, and the role tags. -/
theorem memberTarget_succeeds_iff (hgate : requireValidPTag event = .ok ()) :
    (memberTarget event).Succeeds ↔ ∃ tags, Decodes event tags ∧
      ∀ tag ∈ tags, tag.isNamed "role" = true → ∀ value, tag.value 1 = some value →
        validateRoleName value = .ok () := by
  obtain ⟨value, hvalue, hkey⟩ := Except.bind_eq_ok.mp hgate
  simp only [← RoleName.new_succeeds_iff]
  rw [← roleTags_succeeds_iff]
  unfold memberTarget firstTagValue
  unfold requireIndexedTagValue at hvalue
  rw [hvalue, Except.ok_bind]
  rcases hnew : PublicKeyHex.new value with e | pubkey
  · rw [hnew] at hkey
    cases hkey
  · simp only [Except.mapError, Except.ok_bind, Except.succeeds_bind]
    exact ⟨fun ⟨roles, hroles, _⟩ => ⟨roles, hroles⟩,
      fun ⟨roles, hroles⟩ => ⟨roles, hroles, _, rfl⟩⟩

@[simp] theorem pendingRecord_eq (effect : GroupOutboxEffect) (groupId : GroupId)
    (targetPubkey : Option PublicKeyHex) (payload : GroupOutboxPayload) :
    pendingRecord event effect groupId targetPubkey payload =
      .ok (.pending ⟨event.id, effect, groupId, targetPubkey⟩ payload) := by
  simp only [pendingRecord, GroupEventView.id_eq, Except.ok_bind]
  rfl

/-- A membership change whose target can be read can be planned. -/
theorem memberSnapshotRecords_succeeds {groupId : GroupId} {projection : GroupProjection}
    {authority : GroupAuthority} {createdAt : UnixTimestamp} {cap : UInt32} {before : Option Bool}
    (h : (membershipTargetPubkey event).Succeeds) :
    (memberSnapshotRecords event groupId projection authority createdAt cap before).Succeeds := by
  obtain ⟨target, htarget⟩ := h
  have hrecord : (memberSnapshotRecord event groupId projection createdAt cap).Succeeds := by
    unfold memberSnapshotRecord
    rw [GroupEventView.id_eq, Except.ok_bind]
    split
    · exact ⟨_, rfl⟩
    · exact ⟨_, rfl⟩
  obtain ⟨records, hrecords⟩ := hrecord
  unfold memberSnapshotRecords
  rw [hrecords, Except.ok_bind]
  cases before with
  | none => exact ⟨_, rfl⟩
  | some before =>
    simp only [htarget, Except.ok_bind, pendingRecord_eq]
    split
    · exact ⟨_, rfl⟩
    · exact ⟨_, rfl⟩

end

/-! ## Metadata -/

section
variable {pocket : PocketTypes} {codec : TagCodec} {event : PocketEvent}

/-- The metadata snapshot of a group that fits can be planned. -/
theorem metadataSnapshotRecord_succeeds (lawful : pocket.Lawful codec) {groupId : GroupId}
    {group : GroupState} (h : group.Fits codec) :
    (metadataSnapshotRecord pocket event groupId group).Succeeds := by
  obtain ⟨_, htags⟩ := (lawful.ownedTags_iff _).mpr h
  unfold metadataSnapshotRecord GroupGeneratedEventBuilder.metadataSnapshotPayload metadataTags
    validatePocketTags
  dsimp only
  rw [htags]
  exact ⟨_, pendingRecord_eq ..⟩

/-- An event that was applied had an action, and the group of a create or an edit is there. -/
theorem group_of_applyItem {limits : GroupLimitsConfig} {projection projection' : GroupProjection}
    {item : CanonicalGroupEvent} {kind : Kind} {groupId : GroupId}
    (hclass : classifyGroupEvent item.event limits = .ok (.moderation kind groupId))
    (hthere : kindU32 item.event = kindGroupCreateGroup ∧ projection.group groupId = none ∨
      kindU32 item.event = kindGroupEditMetadata ∧ ∃ group, projection.group groupId = some group)
    (happly : applyItem limits projection item = .ok projection') :
    ∃ group, projection'.group groupId = some group := by
  obtain ⟨action, haction, _, rfl⟩ := applyItem_eq_ok.mp happly
  rw [eventAction, hclass, Except.ok_bind, classAction, moderationAction] at haction
  rcases hthere with ⟨hkind, hnone⟩ | ⟨hkind, group, hgroup⟩
  · simp only [hkind] at haction
    obtain ⟨metadata, _, rfl⟩ := Except.map_eq_ok.mp haction
    refine ⟨ProjectionAction.freshGroup groupId metadata item, ?_⟩
    rw [GroupProjection.group] at hnone
    simp only [ProjectionAction.after, GroupProjection.group, ProjectionAction.groupsAfter, hnone,
      Option.all_none, if_true]
    exact BTreeMap.getElem?_insert_self
  · simp only [hkind] at haction
    cases haction
    rw [GroupProjection.group] at hgroup
    cases parseGroupMetadata item.event limits with
    | error e => exact ⟨group, hgroup⟩
    | ok metadata =>
      simp only [ProjectionAction.after, GroupProjection.group, ProjectionAction.groupsAfter,
        ProjectionAction.getElem?_updateGroup, if_true, hgroup]
      exact ⟨_, rfl⟩

end

/-! ## What acceptance says -/

section
variable {relay : Relay} {state : GroupServiceState} {store : PocketStore} {event : PocketEvent}
  {eventClass : GroupEventClass} {auth : GroupAuthContext}

/-- An accepted event has passed the write policy. -/
theorem policy_of_checkEvent
    (h : (exec relay.db.handle (state.checkEvent event eventClass auth) store).1 = .ok ()) :
    (state.writePolicy.checkEvent event eventClass auth).Succeeds := by
  unfold GroupServiceState.checkEvent at h
  rw [exec_bind, exec_liftExcept] at h
  cases hpolicy : state.writePolicy.checkEvent event eventClass auth with
  | ok decision => exact ⟨decision, rfl⟩
  | error e => rw [hpolicy] at h; cases h

/-- An accepted deletion of an event has been checked. -/
theorem checkDelete_of_checkEvent {kind : Kind} {groupId : GroupId}
    (hkind : kind.value = kindGroupDeleteEvent)
    (h : (exec relay.db.handle (state.checkEvent event (.moderation kind groupId) auth) store).1 =
      .ok ()) :
    (exec relay.db.handle (state.checkDeleteEventTarget event groupId) store).1 = .ok () := by
  unfold GroupServiceState.checkEvent at h
  rw [exec_bind, exec_liftExcept] at h
  cases hpolicy : state.writePolicy.checkEvent event (.moderation kind groupId) auth with
  | error e => rw [hpolicy] at h; cases h
  | ok decision =>
    rw [hpolicy] at h
    simp only [GroupServiceState.checkRuntimeWriteConstraints, hkind, if_true] at h
    exact h

/-- An accepted deletion has a target that can be read. -/
theorem deleteTarget_of_checkEvent {kind : Kind} {groupId : GroupId}
    (hkind : kind.value = kindGroupDeleteEvent)
    (h : (exec relay.db.handle (state.checkEvent event (.moderation kind groupId) auth) store).1
      = .ok ()) : (deleteTargetEventId event).Succeeds := by
  have hcheck := checkDelete_of_checkEvent hkind h
  rw [GroupServiceState.checkDeleteEventTarget, exec_bind, exec_liftExcept] at hcheck
  cases htarget : deleteTargetEventId event with
  | ok target => exact ⟨target, rfl⟩
  | error e => rw [htarget] at hcheck; cases hcheck

/-- The projection finds the target that the runtime's check has found. -/
theorem deletionTarget_of_deleteTarget {target : EventId}
    (h : deleteTargetEventId event = .ok target) : deletionTarget event = .ok target := by
  obtain ⟨value, hvalue, hparse⟩ := lastTargetTag_value h
  unfold deletionTarget firstTagValue
  rw [hvalue, Except.ok_bind, Except.mapError_eq_ok]
  exact Except.mapError_eq_ok.mp hparse

/-- The policy takes a create where the group is not there, and an edit where it is. -/
theorem group_of_policy {policy : GroupWritePolicy} {kind : Kind} {groupId : GroupId}
    (h : (policy.checkEvent event (.moderation kind groupId) auth).Succeeds) :
    (kind.value = kindGroupCreateGroup → policy.projection.group groupId = none) ∧
      (kind.value ≠ kindGroupCreateGroup →
        ∃ group, policy.projection.group groupId = some group) := by
  obtain ⟨decision, h⟩ := h
  obtain ⟨_, _, h⟩ := Except.bind_eq_ok.mp h
  dsimp only at h
  unfold GroupWritePolicy.checkModerationEvent at h
  refine ⟨fun hkind => ?_, fun hkind => ?_⟩
  · rw [if_pos hkind] at h
    obtain ⟨_, _, h⟩ := Except.bind_eq_ok.mp h
    split at h
    · cases h
    split at h
    · cases h
    split at h
    · cases h
    · next hgroup => exact Option.not_isSome_iff_eq_none.mp hgroup
  · rw [if_neg hkind] at h
    obtain ⟨group, hgroup, _⟩ := Except.bind_eq_ok.mp h
    unfold GroupWritePolicy.requireActiveGroup at hgroup
    split at hgroup
    · cases hgroup
    · next found hfound => exact ⟨found, hfound⟩

end

/-! ## The theorem -/

section
variable {relay : Relay} {state : GroupServiceState} {store : PocketStore} {event : PocketEvent}
  {eventClass : GroupEventClass} {auth : GroupAuthContext} {offset : StoreOffset}

/-- The three steps, one after the other. -/
theorem projectStored_succeeds_iff {pocket : PocketTypes} :
    (projectStored pocket state event eventClass offset).Succeeds ↔
      ∃ before projection,
        membershipAdminSnapshotState state.projection event eventClass = .ok before ∧
        applyItem state.limits state.projection ⟨event, offset⟩ = .ok projection ∧
        (planGroupOutboxRecords pocket event eventClass projection state.authority
          state.memberSnapshotCap before).Succeeds := by
  unfold projectStored applyItem
  simp only [Except.succeeds_bind, Except.map_eq_ok]
  constructor
  · rintro ⟨before, hbefore, result, hresult, hplan⟩
    exact ⟨before, result.2, hbefore, ⟨result, hresult, rfl⟩, hplan⟩
  · rintro ⟨before, projection, hbefore, ⟨result, hresult, hprojection⟩, hplan⟩
    subst hprojection
    exact ⟨before, hbefore, result, hresult, hplan⟩

/-- A moderation event is applied by the action its tags give. -/
theorem applyItem_moderation {limits : GroupLimitsConfig} {projection : GroupProjection}
    {kind : Kind} {groupId : GroupId}
    (h : classifyGroupEvent event limits = .ok (.moderation kind groupId)) :
    applyItem limits projection ⟨event, offset⟩ = moderationAction groupId event limits >>=
      ProjectionAction.perform ⟨event, offset⟩ projection := by
  rw [applyItem_eq, eventAction, h]
  rfl

/-- An action that no projection refuses is performed. -/
theorem perform_succeeds {item : CanonicalGroupEvent} {projection : GroupProjection}
    {action : ProjectionAction} (h : action.isTotal = true) :
    action.perform item projection = .ok (action.after item projection) := by
  unfold ProjectionAction.perform
  rw [ProjectionAction.performError_of_isTotal h]

variable {kind : Kind} {groupId : GroupId}

/-- A membership change is projected when its target tags can be read. -/
theorem projectStored_membership_iff
    (hclass : classifyGroupEvent event state.limits = .ok (.moderation kind groupId))
    (hkind : kindU32 event = kindGroupPutUser ∨ kindU32 event = kindGroupRemoveUser)
    (hgate : requireValidPTag event = .ok ()) :
    (projectStored relay.pocket state event (.moderation kind groupId) offset).Succeeds ↔
      ∃ tags, Decodes event tags ∧ TargetsReadable tags := by
  have hvalue : kind.value = kindU32 event := congrArg Kind.value (kind_of_class (.inl hclass))
  have hmember : kind.value = kindGroupPutUser ∨ kind.value = kindGroupRemoveUser :=
    hvalue ▸ hkind
  obtain ⟨status, haction⟩ : ∃ status, moderationAction groupId event state.limits =
      (fun target => .setMember groupId target.1 status target.2) <$> memberTarget event := by
    rcases hkind with hkind | hkind
    · exact ⟨.member, by simp only [moderationAction, hkind]⟩
    · exact ⟨.removed, by simp only [moderationAction, hkind]⟩
  rw [projectStored_succeeds_iff, applyItem_moderation hclass, haction]
  constructor
  · rintro ⟨before, projection, hbefore, happly, _⟩
    rw [membershipAdminSnapshotState, if_pos hmember] at hbefore
    obtain ⟨target, htarget, _⟩ := Except.bind_eq_ok.mp hbefore
    obtain ⟨action, hmap, _⟩ := Except.bind_eq_ok.mp happly
    obtain ⟨member, hmember, _⟩ := Except.map_eq_ok.mp hmap
    obtain ⟨tags, htags, hkeys⟩ := (membershipTargetPubkey_succeeds_iff hgate).mp ⟨target, htarget⟩
    obtain ⟨tags', htags', hroles⟩ := (memberTarget_succeeds_iff hgate).mp ⟨member, hmember⟩
    exact ⟨tags, htags, hkeys, htags'.unique htags ▸ hroles⟩
  · rintro ⟨tags, htags, hreadable⟩
    obtain ⟨target, htarget⟩ :=
      (membershipTargetPubkey_succeeds_iff hgate).mpr ⟨tags, htags, hreadable.keys⟩
    obtain ⟨member, hread⟩ := (memberTarget_succeeds_iff hgate).mpr ⟨tags, htags, hreadable.roles⟩
    have hplan : ∀ projection before, (planGroupOutboxRecords relay.pocket event
        (.moderation kind groupId) projection state.authority state.memberSnapshotCap
        before).Succeeds := by
      intro projection before
      rcases hmember with hmember | hmember
      · simp only [planGroupOutboxRecords, hmember]
        exact memberSnapshotRecords_succeeds ⟨target, htarget⟩
      · simp only [planGroupOutboxRecords, hmember]
        exact memberSnapshotRecords_succeeds ⟨target, htarget⟩
    have hperform := @perform_succeeds ⟨event, offset⟩ state.projection
      (.setMember groupId member.1 status member.2) rfl
    rw [membershipAdminSnapshotState, if_pos hmember, htarget, hread]
    exact ⟨_, _, rfl, hperform, hplan _ _⟩

/-- A create or an edit is projected when its metadata can be read. -/
theorem projectStored_metadata_iff (hfits : state.projection.Fits relay.codec)
    (hevent : event.Fits relay.codec)
    (hclass : classifyGroupEvent event state.limits = .ok (.moderation kind groupId))
    (hthere : kindU32 event = kindGroupCreateGroup ∧ state.projection.group groupId = none ∨
      kindU32 event = kindGroupEditMetadata ∧
        ∃ group, state.projection.group groupId = some group) :
    (projectStored relay.pocket state event (.moderation kind groupId) offset).Succeeds ↔
      ∃ tags, Decodes event tags ∧ MetadataReadable state.limits tags := by
  have hvalue : kind.value = kindU32 event := congrArg Kind.value (kind_of_class (.inl hclass))
  have hbefore : membershipAdminSnapshotState state.projection event (.moderation kind groupId) =
      .ok none := by
    have hnot : ¬(kind.value = kindGroupPutUser ∨ kind.value = kindGroupRemoveUser) := by
      rw [hvalue]
      rcases hthere with ⟨hkind, _⟩ | ⟨hkind, _⟩
      · rw [hkind]; decide
      · rw [hkind]; decide
    exact if_neg hnot
  have hread : (∃ projection, applyItem state.limits state.projection ⟨event, offset⟩ =
      .ok projection) ↔ (parseGroupMetadata event state.limits).Succeeds := by
    rw [applyItem_moderation hclass, moderationAction]
    rcases hthere with ⟨hkind, _⟩ | ⟨hkind, group, hgroup⟩
    · simp only [hkind]
      cases parseGroupMetadata event state.limits with
      | error e => simp
      | ok metadata =>
        rw [Except.functor_map_ok, Except.ok_bind, perform_succeeds rfl]
        simp
    · simp only [hkind, Except.ok_bind, ProjectionAction.perform]
      cases parseGroupMetadata event state.limits with
      | error e => simp [ProjectionAction.performError, hgroup]
      | ok metadata => simp [ProjectionAction.performError]
  have hplan : ∀ projection, applyItem state.limits state.projection ⟨event, offset⟩ =
      .ok projection → (planGroupOutboxRecords relay.pocket event (.moderation kind groupId)
        projection state.authority state.memberSnapshotCap none).Succeeds := by
    intro projection happly
    obtain ⟨group, hgroup⟩ := group_of_applyItem hclass hthere happly
    have hgroupFits : group.Fits relay.codec :=
      ((hfits.applyItem hevent happly) groupId group hgroup).2
    obtain ⟨record, hrecord⟩ := @metadataSnapshotRecord_succeeds _ _ event relay.lawful groupId
      group hgroupFits
    have hrequire : requireProjectedGroup projection groupId = .ok group := by
      rw [requireProjectedGroup, hgroup]
    rcases hthere with ⟨hkind, _⟩ | ⟨hkind, _⟩
    · simp only [planGroupOutboxRecords, hvalue, hkind, hrequire, Except.ok_bind, hrecord,
        pendingRecord_eq]
      exact ⟨_, rfl⟩
    · simp only [planGroupOutboxRecords, hvalue, hkind, hrequire, Except.ok_bind, hrecord]
      exact ⟨_, rfl⟩
  rw [projectStored_succeeds_iff, ← parseGroupMetadata_succeeds_iff, ← hread]
  constructor
  · rintro ⟨_, projection, _, happly, _⟩
    exact ⟨projection, happly⟩
  · rintro ⟨projection, happly⟩
    exact ⟨none, projection, hbefore, happly, hplan projection happly⟩

/-- An event that changes nothing the plan depends on is projected. -/
theorem projectStored_of_total {action : ProjectionAction}
    (hbefore : membershipAdminSnapshotState state.projection event eventClass = .ok none)
    (haction : eventAction event state.limits = .ok action) (htotal : action.isTotal = true)
    (hplan : ∀ projection, (planGroupOutboxRecords relay.pocket event eventClass projection
      state.authority state.memberSnapshotCap none).Succeeds) :
    (projectStored relay.pocket state event eventClass offset).Succeeds := by
  rw [projectStored_succeeds_iff]
  refine ⟨none, action.after ⟨event, offset⟩ state.projection, hbefore, ?_, hplan _⟩
  rw [applyItem_eq, haction, Except.ok_bind, perform_succeeds htotal]

/-- **An accepted event can be projected exactly when it is readable.** In any state a relay may be
in, whatever happened before: if the gate and the policy take an event, then the steps after it is
stored all succeed when its target tags or its metadata can be read, and only then. -/
theorem acceptedEvent_applies_iff (hreach : relay.Reachable (.up (some state) store))
    (hevent : event.Fits relay.codec)
    (hgate : validateClientGroupEventStructure event state.limits = .ok eventClass)
    (haccept : (exec relay.db.handle (state.checkEvent event eventClass auth) store).1 = .ok ()) :
    (projectStored relay.pocket state event eventClass offset).Succeeds ↔
      ReadableOnceStored state.limits event eventClass := by
  obtain ⟨hclass, hnot, htargets⟩ := class_of_gate hgate
  have hfits : state.projection.Fits relay.codec := (hreach.fits.2 state rfl).projection
  cases eventClass with
  | relayGeneratedSnapshot kind groupId => exact absurd rfl (hnot kind groupId)
  | nonGroup =>
    have haction : eventAction event state.limits = .ok .skip := by
      rw [eventAction, hclass]
      rfl
    exact iff_of_true (projectStored_of_total rfl haction rfl fun _ => ⟨_, rfl⟩) trivial
  | normal groupId =>
    have haction : eventAction event state.limits = .ok .ignore := by
      rw [eventAction, hclass]
      rfl
    refine iff_of_true (projectStored_of_total rfl haction rfl fun projection => ?_) trivial
    unfold planGroupOutboxRecords
    dsimp only
    split
    · simp only [GroupEventView.pubkey_eq, Except.ok_bind, pendingRecord_eq]
      exact ⟨_, rfl⟩
    · simp only [GroupEventView.pubkey_eq, Except.ok_bind, pendingRecord_eq]
      exact ⟨_, rfl⟩
    · exact ⟨_, rfl⟩
  | moderation kind groupId =>
    have hvalue : kind.value = kindU32 event := congrArg Kind.value (kind_of_class (.inl hclass))
    have hgate := htargets kind groupId rfl
    obtain ⟨hcreate, hother⟩ := group_of_policy (policy_of_checkEvent haccept)
    unfold ReadableOnceStored
    dsimp only
    split
    · next hkind =>
      simp only [validateModerationTargets, hkind] at hgate
      exact projectStored_membership_iff hclass (.inl (hvalue ▸ hkind)) hgate
    · next hkind =>
      simp only [validateModerationTargets, hkind] at hgate
      exact projectStored_membership_iff hclass (.inr (hvalue ▸ hkind)) hgate
    · next hkind =>
      exact projectStored_metadata_iff hfits hevent hclass
        (.inl ⟨hvalue ▸ hkind, hcreate hkind⟩)
    · next hkind =>
      exact projectStored_metadata_iff hfits hevent hclass
        (.inr ⟨hvalue ▸ hkind, hother (by rw [hkind]; decide)⟩)
    · next hput hremove hcreate hedit =>
      refine iff_of_true ?_ trivial
      have hbefore : membershipAdminSnapshotState state.projection event
          (.moderation kind groupId) = .ok none :=
        if_neg fun h => h.elim hput hremove
      have hplan : ∀ projection, (planGroupOutboxRecords relay.pocket event
          (.moderation kind groupId) projection state.authority state.memberSnapshotCap
          none).Succeeds := by
        intro projection
        unfold planGroupOutboxRecords
        dsimp only
        split <;> first | contradiction | exact ⟨_, rfl⟩
      obtain ⟨action, haction, htotal⟩ : ∃ action,
          moderationAction groupId event state.limits = .ok action ∧ action.isTotal = true := by
        unfold moderationAction
        rw [hvalue] at hput hremove hcreate hedit
        split
        · next h => exact absurd h hcreate
        · next h => exact absurd h hedit
        · next h => exact absurd h hput
        · next h => exact absurd h hremove
        · next h =>
          obtain ⟨target, htarget⟩ := deleteTarget_of_checkEvent (hvalue.trans h) haccept
          rw [deletionTarget_of_deleteTarget htarget]
          exact ⟨_, rfl, rfl⟩
        · exact ⟨_, rfl, rfl⟩
        · exact ⟨_, rfl, rfl⟩
      refine projectStored_of_total hbefore ?_ htotal hplan
      rw [eventAction, hclass]
      exact haction

end

namespace Sample

/-- The owner creates a group. -/
def createFarm : List ScriptLine :=
  [.start config 100, .submit (farmEvent owner 9007 10 [["name", "Farm"]]) (authAs owner)]

/-- A membership with a role. -/
def putMember (role : String) : PocketEvent :=
  farmEvent owner 9000 20 [["p", member.text.toMessage], ["role", role]]

/-- What the gate and the policy say of a membership with a role, and what becomes of it. -/
def Accepts (role : String) (state : GroupServiceState) (store : PocketStore) : Prop :=
  (putMember role).Fits relay.codec ∧
    validateClientGroupEventStructure (putMember role) state.limits =
      .ok (.moderation (kindOf 9000) farm) ∧
    (exec relay.db.handle (state.checkEvent (putMember role) (.moderation (kindOf 9000) farm)
      (authAs owner)) store).1 = .ok ()

instance {role : String} {state : GroupServiceState} {store : PocketStore} :
    Decidable (Accepts role state store) :=
  inferInstanceAs (Decidable (_ ∧ _ ∧ _))

/-- The projection of the membership as the store's next event. -/
def projectsMember (role : String) (state : GroupServiceState) (store : PocketStore) :
    Except GroupError (List GroupOutboxRecord) :=
  projectStored relay.pocket state (putMember role) (.moderation (kindOf 9000) farm)
    (relay.db.nextOffset store.events)

/-- The write has stored the event and ended in a storage error. -/
def StoredWithError (event : PocketEvent) (state : GroupServiceState) (store : PocketStore) :
    Prop :=
  match execState relay.db.handle (relay.submit event (authAs owner)) (some state) store with
  | (.error _, _, store') => event ∈ store'.events.map StoredEvent.event
  | (.ok _, _, _) => False

instance {event : PocketEvent} {state : GroupServiceState} {store : PocketStore} :
    Decidable (StoredWithError event state store) := by
  unfold StoredWithError
  split
  · infer_instance
  · infer_instance

end Sample

section
open Sample

/-- A membership whose role is one word is accepted, and its tags are ones that the steps after the
store can read. -/
theorem acceptedEvent_applies_iff_putMember : ∃ state store,
    relay.Reachable (.up (some state) store) ∧ Accepts "steward" state store ∧
      ReadableOnceStored state.limits (putMember "steward") (.moderation (kindOf 9000) farm) := by
  have hscript : relay.ScriptEnds (fun _ _ => true) createFarm fun state store =>
      Accepts "steward" state store ∧ (projectsMember "steward" state store).Succeeds := by
    decide +kernel
  obtain ⟨state, store, hreach, haccepts, hprojects⟩ := hscript.reaches
  have hreachable := hreach.mono fun _ _ _ => trivial
  exact ⟨state, store, hreachable, haccepts, (acceptedEvent_applies_iff hreachable haccepts.1
    haccepts.2.1 haccepts.2.2).mp hprojects⟩

/-- A role tag of two words: the gate and the policy take the event, it is stored, and then it
cannot be projected, so the write ends in a storage error. -/
theorem acceptedEvent_not_projected : ∃ state store,
    relay.Reachable (.up (some state) store) ∧ Accepts "two words" state store ∧
      ¬(projectsMember "two words" state store).Succeeds ∧
      StoredWithError (putMember "two words") state store := by
  have hscript : relay.ScriptEnds (fun _ _ => true) createFarm fun state store =>
      Accepts "two words" state store ∧ ¬(projectsMember "two words" state store).Succeeds ∧
        StoredWithError (putMember "two words") state store := by
    decide +kernel
  obtain ⟨state, store, hreach, hfails⟩ := hscript.reaches
  exact ⟨state, store, hreach.mono fun _ _ _ => trivial, hfails⟩

end

end Tangle
