import Tangle.Groups.Policy

/-!
# What a refused write tells about a hidden group

A write to a group that is not there is refused with the error that enumerates nothing. A key that
may not read a hidden group learns of it when a write is answered otherwise. The policy looks at the
group before it looks at who asks, so most writes are: `checkEvent_without_iff` lists the ones that
are not.
-/

namespace Tangle

open GroupEventView

/-! ## A projection without a group -/

namespace GroupProjection

/-- The projection without a group, its members, its roles and its tombstone. -/
def without (projection : GroupProjection) (groupId : GroupId) : GroupProjection :=
  { projection with
    groups := projection.groups.erase groupId
    members := projection.members.filter fun key _ => (ofLex key).1 != groupId
    roles := projection.roles.filter fun key _ => (ofLex key).1 != groupId
    tombstones := projection.tombstones.erase groupId }

variable (projection : GroupProjection) (groupId : GroupId)

/-- A projection without a group does not have it. -/
@[simp] theorem group_without_self : (projection.without groupId).group groupId = none := by
  rw [group, without, BTreeMap.getElem?_erase, if_pos rfl]

end GroupProjection

/-- The policy of a relay whose projection has lost a group. -/
def GroupWritePolicy.without (policy : GroupWritePolicy) (groupId : GroupId) : GroupWritePolicy :=
  { policy with projection := policy.projection.without groupId }

/-! ## Answers to one who may not read -/

namespace GroupWritePolicy

/-- The group is there and hidden, and the key is neither the relay's nor a member's. -/
structure HidesFrom (policy : GroupWritePolicy) (groupId : GroupId) (pubkey : PublicKeyHex)
    (group : GroupState) : Prop where
  found : policy.projection.group groupId = some group
  hidden : group.metadata.hidden = true
  unread : policy.canReadGroup groupId (some pubkey) = false

/-- The group takes writes. -/
def IsActive (policy : GroupWritePolicy) (groupId : GroupId) (group : GroupState) : Prop :=
  group.lifecycle = .active ∧ policy.projection.tombstone groupId = none

/-- The write is one that the group itself turns away from anyone but its members: a join of a
closed group, or an event of a restricted one. -/
def TurnsAway (policy : GroupWritePolicy) (event : PocketEvent) (group : GroupState) : Prop :=
  if kindU32 event = kindGroupJoinRequest then
    group.metadata.closed = true ∨ policy.policy.publicJoin = false
  else
    kindU32 event ≠ kindGroupLeaveRequest ∧ group.metadata.restricted = true

variable {policy : GroupWritePolicy} {groupId : GroupId} {event : PocketEvent} {group : GroupState}

/-- A write to a group that is not there is refused without a word about it. -/
theorem checkEvent_of_group_eq_none {eventClass : GroupEventClass} {auth : GroupAuthContext}
    (hgroup : policy.projection.group groupId = none)
    (hclass : eventClass = .normal groupId ∨ ∃ kind, eventClass = .moderation kind groupId ∧
      kind.value ≠ kindGroupCreateGroup) :
    policy.checkEvent event eventClass auth =
      (requireGroupAuthAsAuthor event eventClass auth >>= fun _ =>
        .error nonEnumeratingGroupError) := by
  have hnone : policy.requireActiveGroup groupId = .error nonEnumeratingGroupError := by
    rw [requireActiveGroup, hgroup]
  rcases hclass with rfl | ⟨kind, rfl, hkind⟩
  · simp only [checkEvent, checkNormalEvent, hnone, Except.error_bind]
  · simp only [checkEvent, checkModerationEvent, hkind, if_false, hnone, Except.error_bind]

/-- An active group passes as active. -/
theorem requireActiveGroup_of_isActive (hgroup : policy.projection.group groupId = some group)
    (hactive : policy.IsActive groupId group) : policy.requireActiveGroup groupId = .ok group := by
  simp [requireActiveGroup, hgroup, hactive.1, hactive.2]

/-- A group that is there but not active has been deleted. -/
theorem requireActiveGroup_of_not_isActive
    (hgroup : policy.projection.group groupId = some group)
    (hdeleted : ¬policy.IsActive groupId group) :
    policy.requireActiveGroup groupId = .error (.blocked .groupDeleted "group is deleted") := by
  have hcases : group.lifecycle = .deleted ∨ (policy.projection.tombstone groupId).isSome := by
    by_contra hnot
    obtain ⟨hlifecycle, htombstone⟩ := not_or.mp hnot
    refine hdeleted ⟨?_, Option.not_isSome_iff_eq_none.mp htombstone⟩
    cases hstate : group.lifecycle with
    | active => rfl
    | deleted => exact absurd hstate hlifecycle
  simp only [requireActiveGroup, hgroup, hcases, if_true]

/-- Looking for a role tag ends with nothing but the error of a tag that is no text. -/
theorem hasRoleTag_error {error : GroupError} (h : hasRoleTag event = .error error) :
    error.kind = .malformedGroupTag := by
  have htag : ∀ {raw : List TagValue} {error : GroupError},
      GroupEventTag.fromPocket raw = .error error → error.kind = .malformedGroupTag := by
    intro raw error h
    rcases Except.bind_eq_error.mp h with h | ⟨_, _, h⟩
    · clear * - h
      induction raw with
      | nil => cases h
      | cons value rest ih =>
        rw [List.mapM_cons] at h
        rcases Except.bind_eq_error.mp h with h | ⟨_, _, h⟩
        · cases value with
          | text value => cases h
          | raw bytes => cases h; rfl
        · rcases Except.bind_eq_error.mp h with h | ⟨_, _, h⟩
          · exact ih h
          · cases h
    · cases h
  unfold hasRoleTag GroupEventView.visitTags at h
  generalize false = found at h
  generalize event.tags = tags at h
  induction tags generalizing found with
  | nil => cases h
  | cons raw rest ih =>
    rw [List.foldlM_cons] at h
    rcases Except.bind_eq_error.mp h with h | ⟨_, _, h⟩
    · rcases Except.bind_eq_error.mp h with h | ⟨_, _, h⟩
      · exact htag h
      · cases h
    · exact ih _ h

/-- A key with no standing in the group lacks every capability. -/
theorem requireCapability_of_unread {pubkey : PublicKeyHex}
    (hunread : policy.canReadGroup groupId (some pubkey) = false) (required : Capability) :
    ∃ message, policy.requireCapability groupId pubkey required =
      .error (.restricted .missingCapability message) := by
  obtain ⟨hadmin, hmember⟩ := Bool.or_eq_false_iff.mp hunread
  have hnone : policy.actorCapabilities groupId pubkey = .ok ∅ := by
    unfold isCurrentMember at hmember
    unfold actorCapabilities
    cases hfound : policy.projection.member groupId pubkey with
    | none => rfl
    | some member =>
      rw [hfound, Option.any_some] at hmember
      have hstatus : member.status ≠ .member := fun heq => by simp [heq] at hmember
      simp only [ne_eq, hstatus, not_false_eq_true, if_true]
  unfold requireCapability
  rw [hadmin, hnone]
  exact ⟨_, rfl⟩

/-- A moderation event of one who may not read the group is never refused as if the group were not
there: what it needs is looked for first. -/
theorem checkModerationEvent_ne_nonEnumerating {kind : Nat}
    (hgroup : policy.projection.group groupId = some group) (hkind : kind ≠ kindGroupCreateGroup)
    (hunread : policy.canReadGroup groupId (some event.pubkey) = false) :
    policy.checkModerationEvent event kind groupId ≠ .error nonEnumeratingGroupError := by
  intro h
  unfold checkModerationEvent at h
  rw [if_neg hkind] at h
  by_cases hactive : policy.IsActive groupId group
  · rw [requireActiveGroup_of_isActive hgroup hactive, Except.ok_bind] at h
    split at h
    · exact absurd (congrArg GroupError.kind (Except.error.inj h)) (by decide)
    rw [GroupEventView.pubkey_eq, Except.ok_bind] at h
    unfold checkRequiredCapability at h
    cases hrequired : requiredCapability kind event with
    | error error =>
      -- only a put-user looks at the tags for what it needs
      rw [hrequired] at h
      have herror : error.kind = .malformedGroupTag := by
        unfold requiredCapability at hrequired
        split at hrequired
        · rcases Except.bind_eq_error.mp hrequired with hrole | ⟨found, _, hrest⟩
          · exact hasRoleTag_error hrole
          · cases found <;> cases hrest
        all_goals cases hrequired
      obtain rfl := Except.error.inj h
      cases herror
    | ok required =>
      rw [hrequired, Except.ok_bind] at h
      cases required with
      | some required =>
        obtain ⟨message, hmissing⟩ := @requireCapability_of_unread policy groupId event.pubkey
          hunread required
        simp only [hmissing, Except.error_bind] at h
        have hkinds := congrArg GroupError.kind (Except.error.inj h)
        cases hkinds
      | none =>
        -- an edit or a removal needs something
        have hneed : kind ≠ kindGroupRemoveUser ∧ kind ≠ kindGroupEditMetadata := by
          refine ⟨fun heq => ?_, fun heq => ?_⟩
          · subst heq
            cases hrequired
          · subst heq
            cases hrequired
        simp only [checkRemovalTarget, hneed.1, hneed.2, if_false, decide_false,
          Bool.false_and] at h
        cases h
  · rw [requireActiveGroup_of_not_isActive hgroup hactive, Except.error_bind] at h
    exact absurd (congrArg GroupError.kind (Except.error.inj h)) (by decide)

/-- When an event of one who may not read the group is refused as if the group were not there. -/
theorem checkNormalEvent_eq_nonEnumerating_iff
    (hgroup : policy.projection.group groupId = some group)
    (hunread : policy.canReadGroup groupId (some event.pubkey) = false) :
    policy.checkNormalEvent event groupId = .error nonEnumeratingGroupError ↔
      policy.IsActive groupId group ∧ policy.TurnsAway event group := by
  have hmember : policy.isCurrentMember groupId event.pubkey = false :=
    (Bool.or_eq_false_iff.mp hunread).2
  by_cases hactive : policy.IsActive groupId group
  · have hfound := requireActiveGroup_of_isActive hgroup hactive
    unfold checkNormalEvent TurnsAway
    rw [hfound, Except.ok_bind]
    simp only [hactive, true_and]
    split
    · next hjoin =>
      rw [if_pos hjoin, checkJoin, hfound, Except.ok_bind, GroupEventView.pubkey_eq,
        Except.ok_bind, hmember]
      cases hclosed : group.metadata.closed <;> cases hpublic : policy.policy.publicJoin <;>
        simp [throw, throwThe, MonadExceptOf.throw, pure, Except.pure]
    · next hleave =>
      have hne : kindU32 event ≠ kindGroupJoinRequest := by
        rw [hleave]
        decide
      rw [if_neg hne, checkLeave, hfound, Except.ok_bind, GroupEventView.pubkey_eq,
        Except.ok_bind, hmember]
      refine ⟨fun h => ?_, fun h => absurd hleave h.1⟩
      exact absurd (congrArg GroupError.kind (Except.error.inj h)) (by decide)
    · next hjoin hleave =>
      rw [if_neg hjoin, GroupEventView.pubkey_eq, Except.ok_bind, hunread]
      cases hrestricted : group.metadata.restricted with
      | true =>
        have hne : kindU32 event ≠ kindGroupLeaveRequest := hleave
        simp [hne, throw, throwThe, MonadExceptOf.throw]
      | false =>
        simp only [Bool.false_and, Bool.false_eq_true, if_false, GroupEventView.kind_eq,
          Except.ok_bind, and_false, iff_false]
        intro h
        unfold checkSupportedKind at h
        split at h
        · cases h
        · exact absurd (congrArg GroupError.kind (Except.error.inj h)) (by decide)
        · split at h
          · cases h
          · exact absurd (congrArg GroupError.kind (Except.error.inj h)) (by decide)
  · have hdeleted := requireActiveGroup_of_not_isActive hgroup hactive
    unfold checkNormalEvent
    rw [hdeleted, Except.error_bind]
    simp only [hactive, false_and, iff_false]
    intro h
    exact absurd (congrArg GroupError.kind (Except.error.inj h)) (by decide)

/-- **When a write does not tell that a hidden group is there.** The answer to a key that may not
read the group is the one it would get if the group were not there exactly when the key has not
authenticated, or the group is active and turns the write away itself; a moderation event of an
authenticated key always tells. -/
theorem checkEvent_without_iff {eventClass : GroupEventClass} {auth : GroupAuthContext}
    (hhides : policy.HidesFrom groupId event.pubkey group)
    (hclass : eventClass = .normal groupId ∨ ∃ kind, eventClass = .moderation kind groupId ∧
      kind.value ≠ kindGroupCreateGroup) :
    policy.checkEvent event eventClass auth =
        (policy.without groupId).checkEvent event eventClass auth ↔
      auth.contains event.pubkey = false ∨ (eventClass = .normal groupId ∧
        policy.IsActive groupId group ∧ policy.TurnsAway event group) := by
  have hgone : (policy.without groupId).projection.group groupId = none :=
    policy.projection.group_without_self groupId
  rw [@checkEvent_of_group_eq_none (policy.without groupId) groupId event eventClass auth hgone
    hclass]
  have hgroup : eventClass ≠ .nonGroup := by
    rcases hclass with rfl | ⟨kind, rfl, _⟩ <;> exact fun h => (nomatch h)
  unfold checkEvent requireGroupAuthAsAuthor
  simp only [hgroup, if_false, GroupEventView.pubkey_eq, Except.ok_bind]
  cases hauth : auth.contains event.pubkey with
  | false => simp [throw, throwThe, MonadExceptOf.throw]
  | true =>
    simp only [if_true, Bool.true_eq_false, false_or]
    rcases hclass with rfl | ⟨kind, rfl, hkind⟩
    · simpa [pure, Except.pure] using
        checkNormalEvent_eq_nonEnumerating_iff hhides.found hhides.unread
    · have hne := checkModerationEvent_ne_nonEnumerating hhides.found hkind hhides.unread
      simpa [pure, Except.pure] using hne

/-! ## A hidden group that is found by writing to it -/

/-- The name of the sample group is one that a group may have. -/
theorem isGroupId_farm : IsGroupId "farm".toList :=
  ((@validateGroupId_eq_ok _ maxGroupIdBytes).mp (by decide)).1

/-- The id of the sample group. -/
def hiddenFarm : GroupId :=
  ⟨"farm".toList, isGroupId_farm⟩

/-- A hidden and closed group, as a create leaves it. -/
def hiddenGroup : GroupState :=
  .new hiddenFarm { GroupMetadata.empty with hidden := true, closed := true }
    (.repeated 'a' (Eq.refl true)) (.repeated '1' (Eq.refl true))
    ⟨10, .repeated '1' (Eq.refl true), 8⟩

/-- A relay with one hidden group, no members and no authority, where anyone may join. -/
def hiddenPolicy : GroupWritePolicy :=
  ⟨GroupProjection.new.putGroup hiddenGroup, .new [] [], ⟨true, false⟩⟩

/-- An event of a key that has no part in the group. -/
def outsiderEvent (kind : UInt16) : PocketEvent :=
  .ofTexts (.repeated '2' (Eq.refl true)) (.repeated 'c' (Eq.refl true)) kind 20
    [["h".toList, "farm".toList]]

/-- A reader of no group. -/
def outsiderAuth : GroupAuthContext :=
  .new [.repeated 'c' (Eq.refl true)]

/-- The sample policy hides the group from that reader. -/
theorem hiddenPolicy_hidesFrom (kind : UInt16) :
    hiddenPolicy.HidesFrom hiddenFarm (outsiderEvent kind).pubkey hiddenGroup where
  found := BTreeMap.getElem?_insert_self
  hidden := rfl
  unread := by
    simp [canReadGroup, isCurrentMember, hiddenPolicy, GroupAuthority.isAdmin,
      GroupAuthority.isOwner, GroupAuthority.new, GroupProjection.member, GroupProjection.putGroup,
      GroupProjection.new]

/-- A join of a closed hidden group by a reader whom the group is hidden from is answered as it
would be were there no group. -/
theorem checkEvent_without_iff_closedJoin :
    hiddenPolicy.checkEvent (outsiderEvent 9021) (.normal hiddenFarm) outsiderAuth =
      (hiddenPolicy.without hiddenFarm).checkEvent (outsiderEvent 9021) (.normal hiddenFarm)
        outsiderAuth := by
  refine (checkEvent_without_iff (hiddenPolicy_hidesFrom 9021) (.inl rfl)).mpr (.inr ⟨rfl, ?_, ?_⟩)
  · refine ⟨rfl, ?_⟩
    simp [hiddenPolicy, GroupProjection.tombstone, GroupProjection.putGroup, GroupProjection.new]
  · exact .inl rfl

/-- An edit by a key outside the group is refused for want of a capability. Were there no group, it
would be refused as a write to an unavailable one, so the words tell that there is. -/
theorem hiddenGroup_toldByEdit :
    hiddenPolicy.HidesFrom hiddenFarm (outsiderEvent 9002).pubkey hiddenGroup ∧
      validateClientGroupEventStructure (outsiderEvent 9002) .default =
        .ok (.moderation ⟨9002, by decide⟩ hiddenFarm) ∧
      hiddenPolicy.checkEvent (outsiderEvent 9002) (.moderation ⟨9002, by decide⟩ hiddenFarm)
          outsiderAuth ≠
        (hiddenPolicy.without hiddenFarm).checkEvent (outsiderEvent 9002)
          (.moderation ⟨9002, by decide⟩ hiddenFarm) outsiderAuth := by
  have hhides := hiddenPolicy_hidesFrom 9002
  refine ⟨hhides, by decide +kernel, fun hsame => ?_⟩
  have hgone : (hiddenPolicy.without hiddenFarm).projection.group hiddenFarm = none :=
    hiddenPolicy.projection.group_without_self hiddenFarm
  have hkind : (⟨9002, by decide⟩ : Kind).value ≠ kindGroupCreateGroup := by decide
  rw [checkEvent_of_group_eq_none hgone (.inr ⟨_, rfl, hkind⟩)] at hsame
  have hauth : requireGroupAuthAsAuthor (outsiderEvent 9002)
      (.moderation ⟨9002, by decide⟩ hiddenFarm) outsiderAuth = .ok () := by decide +kernel
  unfold checkEvent at hsame
  rw [hauth] at hsame
  exact checkModerationEvent_ne_nonEnumerating hhides.found hkind hhides.unread hsame

end GroupWritePolicy

end Tangle
