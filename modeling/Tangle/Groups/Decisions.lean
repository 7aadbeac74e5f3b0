import Tangle.Groups.History
import Tangle.Groups.Policy

/-!
# Projections that decide alike

The write policy and the read gate look at members, tombstones, deletions, roles, the metadata of a
group and whether it is deleted, and a group marked deleted has a tombstone. So projections that
agree on these decide alike (`DecidesLike.checkEvent`, `DecidesLike.screenEvent`), and projections
that have seen the same events agree (`ProjectionReflects.decidesLike`).
-/

namespace Tangle

open GroupEventView

/-- The projections agree on what decisions look at. -/
structure DecidesLike (p q : GroupProjection) : Prop where
  members : p.members = q.members
  tombstones : p.tombstones = q.tombstones
  eventDeletions : p.eventDeletions = q.eventDeletions
  roles : p.roles = q.roles
  metadata : ∀ groupId,
    (p.group groupId).map GroupState.metadata = (q.group groupId).map GroupState.metadata

/-- A group that is marked deleted has a tombstone. -/
def GroupProjection.DeletedHaveTombstones (projection : GroupProjection) : Prop :=
  ∀ groupId group, projection.group groupId = some group → group.lifecycle = .deleted →
    (projection.tombstone groupId).isSome = true

namespace DecidesLike

variable {p q : GroupProjection} {authority : GroupAuthority} {config : GroupPolicyConfig}
  {event : PocketEvent} {groupId : GroupId}

/-- Two projections decide alike either way round. -/
theorem symm (h : DecidesLike p q) : DecidesLike q p where
  members := h.members.symm
  tombstones := h.tombstones.symm
  eventDeletions := h.eventDeletions.symm
  roles := h.roles.symm
  metadata groupId := (h.metadata groupId).symm

/-- Projections that decide like a third decide alike. -/
theorem trans {r : GroupProjection} (h : DecidesLike p q) (h' : DecidesLike q r) :
    DecidesLike p r where
  members := h.members.trans h'.members
  tombstones := h.tombstones.trans h'.tombstones
  eventDeletions := h.eventDeletions.trans h'.eventDeletions
  roles := h.roles.trans h'.roles
  metadata groupId := (h.metadata groupId).trans (h'.metadata groupId)

/-- They have the same members. -/
theorem member (h : DecidesLike p q) (pubkey : PublicKeyHex) :
    p.member groupId pubkey = q.member groupId pubkey := by
  rw [GroupProjection.member, h.members, GroupProjection.member]

/-- They have the same tombstones. -/
theorem tombstone (h : DecidesLike p q) : p.tombstone groupId = q.tombstone groupId := by
  rw [GroupProjection.tombstone, h.tombstones, GroupProjection.tombstone]

/-- A group is there in both with the same metadata, or in neither. -/
theorem group_cases (h : DecidesLike p q) (groupId : GroupId) :
    (p.group groupId = none ∧ q.group groupId = none) ∨
      ∃ group group', p.group groupId = some group ∧ q.group groupId = some group' ∧
        group.metadata = group'.metadata := by
  have hmetadata := h.metadata groupId
  cases hp : p.group groupId with
  | none =>
    rw [hp, Option.map_none, eq_comm, Option.map_eq_none_iff] at hmetadata
    exact .inl ⟨rfl, hmetadata⟩
  | some group =>
    rw [hp, Option.map_some, eq_comm, Option.map_eq_some_iff] at hmetadata
    obtain ⟨group', hq, heq⟩ := hmetadata
    exact .inr ⟨group, group', rfl, hq, heq.symm⟩

section
variable (h : DecidesLike p q)
include h

/-- **They let the same readers in**: reading looks at the group, its tombstone and the reader's
membership. -/
theorem canReadGroup (reader : Option PublicKeyHex) :
    GroupWritePolicy.canReadGroup ⟨p, authority, config⟩ groupId reader =
      GroupWritePolicy.canReadGroup ⟨q, authority, config⟩ groupId reader := by
  simp only [GroupWritePolicy.canReadGroup, GroupWritePolicy.isCurrentMember, h.member]

/-- Both refuse the group alike, or both have it with the same metadata. -/
theorem requireActiveGroup_cases (hp : p.DeletedHaveTombstones) (hq : q.DeletedHaveTombstones) :
    (∃ error, GroupWritePolicy.requireActiveGroup ⟨p, authority, config⟩ groupId = .error error ∧
        GroupWritePolicy.requireActiveGroup ⟨q, authority, config⟩ groupId = .error error) ∨
      ∃ group group',
        GroupWritePolicy.requireActiveGroup ⟨p, authority, config⟩ groupId = .ok group ∧
        GroupWritePolicy.requireActiveGroup ⟨q, authority, config⟩ groupId = .ok group' ∧
        group.metadata = group'.metadata := by
  unfold GroupWritePolicy.requireActiveGroup
  rcases h.group_cases groupId with ⟨hnone, hnone'⟩ | ⟨group, group', hgroup, hgroup', hmetadata⟩
  · rw [hnone, hnone']
    exact .inl ⟨_, rfl, rfl⟩
  · simp only [hgroup, hgroup', h.tombstone]
    -- whether a group is deleted is told by its tombstone
    have hdeleted : ∀ {r : GroupProjection} {found : GroupState}, r.DeletedHaveTombstones →
        r.group groupId = some found → r.tombstone groupId = q.tombstone groupId →
        (found.lifecycle = .deleted ∨ (q.tombstone groupId).isSome = true ↔
          (q.tombstone groupId).isSome = true) := by
      intro r found hr hfound heq
      exact or_iff_right_of_imp fun hlifecycle => heq ▸ hr groupId found hfound hlifecycle
    simp only [hdeleted hp hgroup h.tombstone, hdeleted hq hgroup' rfl]
    split
    · exact .inl ⟨_, rfl, rfl⟩
    · exact .inr ⟨group, group', rfl, rfl, hmetadata⟩

/-- They ask the same capability of the same actor. -/
theorem requireCapability (actor : PublicKeyHex) (required : Capability) :
    GroupWritePolicy.requireCapability ⟨p, authority, config⟩ groupId actor required =
      GroupWritePolicy.requireCapability ⟨q, authority, config⟩ groupId actor required := by
  simp only [GroupWritePolicy.requireCapability, GroupWritePolicy.actorCapabilities, h.member,
    h.roles]

/-- They ask the capability of a moderation event of the same actor. -/
theorem checkRequiredCapability (kind : Nat) (actor : PublicKeyHex) :
    GroupWritePolicy.checkRequiredCapability ⟨p, authority, config⟩ event kind groupId actor =
      GroupWritePolicy.checkRequiredCapability ⟨q, authority, config⟩ event kind groupId
        actor := by
  simp only [GroupWritePolicy.checkRequiredCapability, h.requireCapability]

/-- They protect the same targets of a removal. -/
theorem checkRemovalTarget (kind : Nat) :
    GroupWritePolicy.checkRemovalTarget ⟨p, authority, config⟩ event kind groupId =
      GroupWritePolicy.checkRemovalTarget ⟨q, authority, config⟩ event kind groupId := by
  simp only [GroupWritePolicy.checkRemovalTarget, GroupWritePolicy.isProtectedAdmin,
    GroupWritePolicy.hasRelayOverride, h.member]

/-- They decide the creation of a group alike. -/
theorem checkCreateGroup :
    GroupWritePolicy.checkCreateGroup ⟨p, authority, config⟩ event groupId =
      GroupWritePolicy.checkCreateGroup ⟨q, authority, config⟩ event groupId := by
  have hgroup : (p.group groupId).isSome = (q.group groupId).isSome := by
    rcases h.group_cases groupId with ⟨hnone, hnone'⟩ | ⟨group, group', hgroup, hgroup', _⟩
    · rw [hnone, hnone']
    · rw [hgroup, hgroup']
      rfl
  simp only [GroupWritePolicy.checkCreateGroup, h.tombstone, hgroup]

variable (hp : p.DeletedHaveTombstones) (hq : q.DeletedHaveTombstones)
include hp hq

/-- They decide a moderation event alike. -/
theorem checkModerationEvent (kind : Nat) :
    GroupWritePolicy.checkModerationEvent ⟨p, authority, config⟩ event kind groupId =
      GroupWritePolicy.checkModerationEvent ⟨q, authority, config⟩ event kind groupId := by
  unfold GroupWritePolicy.checkModerationEvent
  rw [h.checkCreateGroup]
  split
  · rfl
  rcases @requireActiveGroup_cases _ _ authority config groupId h hp hq with
    ⟨error, herror, herror'⟩ | ⟨group, group', hgroup, hgroup', hmetadata⟩
  · rw [herror, herror']
    rfl
  · simp only [hgroup, hgroup', Except.ok_bind, hmetadata, h.checkRequiredCapability,
      h.checkRemovalTarget, h.canReadGroup]

/-- They decide a member's event alike. -/
theorem checkNormalEvent :
    GroupWritePolicy.checkNormalEvent ⟨p, authority, config⟩ event groupId =
      GroupWritePolicy.checkNormalEvent ⟨q, authority, config⟩ event groupId := by
  unfold GroupWritePolicy.checkNormalEvent GroupWritePolicy.checkJoin GroupWritePolicy.checkLeave
  rcases @requireActiveGroup_cases _ _ authority config groupId h hp hq with
    ⟨error, herror, herror'⟩ | ⟨group, group', hgroup, hgroup', hmetadata⟩
  · rw [herror, herror']
    rfl
  · simp only [hgroup, hgroup', Except.ok_bind, hmetadata, h.canReadGroup,
      GroupWritePolicy.isCurrentMember, h.member]
    rfl

/-- Projections that agree lead to the same decision on a write. -/
theorem checkEvent (eventClass : GroupEventClass) (auth : GroupAuthContext) :
    GroupWritePolicy.checkEvent ⟨p, authority, config⟩ event eventClass auth =
      GroupWritePolicy.checkEvent ⟨q, authority, config⟩ event eventClass auth := by
  unfold GroupWritePolicy.checkEvent
  cases eventClass with
  | nonGroup => rfl
  | relayGeneratedSnapshot kind groupId => rfl
  | moderation kind groupId => simp only [h.checkModerationEvent hp hq]
  | normal groupId => simp only [h.checkNormalEvent hp hq]

end

/-- Projections that agree lead to the same decision on a read. -/
theorem screenEvent (h : DecidesLike p q) (reader : Option PublicKeyHex)
    (limits : GroupLimitsConfig) :
    GroupReadGate.screenEvent ⟨p, authority⟩ event reader limits =
      GroupReadGate.screenEvent ⟨q, authority⟩ event reader limits := by
  have hread : ∀ groupId, GroupReadGate.canReadGroup ⟨p, authority⟩ groupId reader =
      GroupReadGate.canReadGroup ⟨q, authority⟩ groupId reader := by
    intro groupId
    simp only [GroupReadGate.canReadGroup, h.member]
  have hnormal : ∀ groupId, GroupReadGate.screenNormalEvent ⟨p, authority⟩ groupId reader =
      GroupReadGate.screenNormalEvent ⟨q, authority⟩ groupId reader := by
    intro groupId
    rcases h.group_cases groupId with ⟨hnone, hnone'⟩ | ⟨group, group', hgroup, hgroup', heq⟩
    · simp only [GroupReadGate.screenNormalEvent, hnone, hnone']
    · simp only [GroupReadGate.screenNormalEvent, hgroup, hgroup', heq, h.tombstone, hread]
  have hmarker : ∀ eventId groupId,
      GroupReadGate.screenDeleteGroupMarker ⟨p, authority⟩ eventId groupId reader =
        GroupReadGate.screenDeleteGroupMarker ⟨q, authority⟩ eventId groupId reader := by
    intro eventId groupId
    rcases h.group_cases groupId with ⟨hnone, hnone'⟩ | ⟨group, group', hgroup, hgroup', heq⟩
    · simp only [GroupReadGate.screenDeleteGroupMarker, hnone, hnone']
    · simp only [GroupReadGate.screenDeleteGroupMarker, hgroup, hgroup', heq, h.tombstone, hread,
        hnormal]
  have hsnapshot : ∀ kind groupId,
      GroupReadGate.screenSnapshotEvent ⟨p, authority⟩ kind groupId reader =
        GroupReadGate.screenSnapshotEvent ⟨q, authority⟩ kind groupId reader := by
    intro kind groupId
    rcases h.group_cases groupId with ⟨hnone, hnone'⟩ | ⟨group, group', hgroup, hgroup', heq⟩
    · simp only [GroupReadGate.screenSnapshotEvent, hnone, hnone']
    · simp only [GroupReadGate.screenSnapshotEvent, hgroup, hgroup', heq, h.tombstone, hread]
  unfold GroupReadGate.screenEvent
  simp only [GroupProjection.eventDeletion, h.eventDeletions, hnormal, hmarker, hsnapshot]
  rfl

end DecidesLike

/-! ## Projections that have seen the same events -/

/-- Tuples tell the events apart, and metadata is set only for groups that some event made. -/
structure Consistent (limits : GroupLimitsConfig) (L : CanonicalGroupEvent → Prop) : Prop where
  told : ∀ a b, L a → L b → a.tuple = b.tuple → a = b
  made : ∀ groupId item, L item → SetsMetadata limits groupId item →
    ∃ maker, L maker ∧ MakesGroup limits groupId maker

section
variable {limits : GroupLimitsConfig} {L : CanonicalGroupEvent → Prop} {p q : GroupProjection}

/-- In a projection that the events have made, a deleted group has a tombstone. -/
theorem ProjectionReflects.deletedHaveTombstones (h : ProjectionReflects limits L p) :
    p.DeletedHaveTombstones := by
  intro groupId group hgroup hdeleted
  obtain ⟨item, hitem, tombstone, hwrite⟩ := (h.groups groupId group hgroup).deleted hdeleted
  obtain ⟨found, hfound, _⟩ := h.tombstones.latest ⟨item, hitem, hwrite⟩
  rw [GroupProjection.tombstone, hfound]
  rfl

/-- The metadata of a group is what the latest event has set. -/
theorem ProjectionReflects.metadata_eq (hL : Consistent limits L)
    (hp : ProjectionReflects limits L p) (hq : ProjectionReflects limits L q) {groupId : GroupId}
    {group group' : GroupState} (hgroup : p.group groupId = some group)
    (hgroup' : q.group groupId = some group') : group.metadata = group'.metadata := by
  have hcovers := hp.groups groupId group hgroup
  have hcovers' := hq.groups groupId group' hgroup'
  obtain ⟨item, hitem, hwrite, htuple⟩ := hcovers.written
  obtain ⟨item', hitem', hwrite', htuple'⟩ := hcovers'.written
  have hle : item.tuple ≤ item'.tuple := htuple' ▸ hcovers'.latest item hitem ⟨_, hwrite⟩
  have hge : item'.tuple ≤ item.tuple := htuple ▸ hcovers.latest item' hitem' ⟨_, hwrite'⟩
  obtain rfl := hL.told item item' hitem hitem' (le_antisymm hle hge)
  exact congrArg Prod.snd (Option.some.inj (hwrite.symm.trans hwrite'))

/-- Projections that have seen the same events decide alike. -/
theorem ProjectionReflects.decidesLike (hL : Consistent limits L)
    (hp : ProjectionReflects limits L p) (hq : ProjectionReflects limits L q) :
    DecidesLike p q where
  members := Lww.Reflects.ext hp.members hq.members (memberField.told limits hL.told)
  tombstones := Lww.Reflects.ext hp.tombstones hq.tombstones (tombstoneField.told limits hL.told)
  eventDeletions :=
    Lww.Reflects.ext hp.eventDeletions hq.eventDeletions (deletionField.told limits hL.told)
  roles := hp.roles.trans hq.roles.symm
  metadata groupId := by
    -- a group of one projection is one of the other
    have hthere : ∀ {r s : GroupProjection} {group : GroupState}, ProjectionReflects limits L r →
        ProjectionReflects limits L s → r.group groupId = some group →
        ∃ group', s.group groupId = some group' := by
      intro r s group hr hs hgroup
      obtain ⟨item, hitem, hwrite, _⟩ := (hr.groups groupId group hgroup).written
      obtain ⟨maker, hmaker, hmakes⟩ := hL.made groupId item hitem ⟨_, hwrite⟩
      exact hs.present groupId maker hmaker hmakes
    cases hgroup : p.group groupId with
    | some group =>
      obtain ⟨group', hgroup'⟩ := hthere hp hq hgroup
      rw [hgroup', Option.map_some, Option.map_some,
        ProjectionReflects.metadata_eq hL hp hq hgroup hgroup']
    | none =>
      cases hgroup' : q.group groupId with
      | none => rfl
      | some group' =>
        obtain ⟨group, hgroup''⟩ := hthere hq hp hgroup'
        cases hgroup.symm.trans hgroup''

end

end Tangle
