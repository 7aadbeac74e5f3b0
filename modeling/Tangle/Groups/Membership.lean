import Tangle.Groups.ProjectionMaps
import Tangle.Groups.Policy

/-!
# Members through an event

A member's entry is written by the put-user and remove-user events of the group that name it, and by
nothing else (`eventAction_eq_setMember`); the entry that is there stays when it is later
(`member_applyItem`). What the policy takes for the target of a removal is the member that the
projection writes (`memberTarget_of_targetPubkey`).
-/

namespace Tangle

open GroupEventView

variable {event : PocketEvent} {limits : GroupLimitsConfig} {groupId : GroupId}
  {pubkey : PublicKeyHex} {status : MemberStatus} {roles : BTreeSet RoleName}

/-- The status that a kind of event gives a member. -/
def membershipStatus (kind : Nat) : Option MemberStatus :=
  match kind with
  | kindGroupPutUser => some .member
  | kindGroupRemoveUser => some .removed
  | _ => none

/-- Members are set by put-user and remove-user events. -/
theorem eventAction_eq_setMember :
    eventAction event limits = .ok (.setMember groupId pubkey status roles) ↔
      (∃ kind, classifyGroupEvent event limits = .ok (.moderation kind groupId)) ∧
        memberTarget event = .ok (pubkey, roles) ∧ membershipStatus
          (kindU32 event) = some status := by
  unfold eventAction
  refine ⟨fun h => ?_, fun ⟨⟨kind, hclass⟩, htarget, hstatus⟩ => ?_⟩
  · obtain ⟨eventClass, hclass, h⟩ := Except.bind_eq_ok.mp h
    cases eventClass with
    | nonGroup => cases h
    | normal groupId => cases h
    | relayGeneratedSnapshot kind groupId =>
      unfold classAction at h
      dsimp only at h
      split at h
      · obtain ⟨_, _, h⟩ := Except.map_eq_ok.mp h
        cases h
      · cases h
    | moderation kind groupId' =>
      unfold classAction moderationAction at h
      dsimp only at h
      split at h
      · obtain ⟨_, _, h⟩ := Except.map_eq_ok.mp h
        cases h
      · cases h
      · next hkind =>
        obtain ⟨target, htarget, h⟩ := Except.map_eq_ok.mp h
        cases h
        exact ⟨⟨kind, hclass⟩, htarget, by rw [hkind]; rfl⟩
      · next hkind =>
        obtain ⟨target, htarget, h⟩ := Except.map_eq_ok.mp h
        cases h
        exact ⟨⟨kind, hclass⟩, htarget, by rw [hkind]; rfl⟩
      · obtain ⟨_, _, h⟩ := Except.map_eq_ok.mp h
        cases h
      · cases h
      · cases h
  · rw [hclass, Except.ok_bind]
    unfold classAction moderationAction
    dsimp only
    unfold membershipStatus at hstatus
    split at hstatus
    · next hkind =>
      cases hstatus
      simp only [hkind, htarget, Except.functor_map_ok]
    · next hkind =>
      cases hstatus
      simp only [hkind, htarget, Except.functor_map_ok]
    · cases hstatus

/-- The target of a removal, as the policy reads it, is the member that is removed. -/
theorem memberTarget_of_targetPubkey {target : PublicKeyHex}
    (htarget : targetPubkey event "p" = .ok target) (h : memberTarget event = .ok (pubkey, roles)) :
    pubkey = target := by
  obtain ⟨value, hvalue, hparse⟩ := lastTargetTag_value htarget
  unfold memberTarget firstTagValue at h
  rw [hvalue, Except.ok_bind] at h
  obtain ⟨key, hkey, h⟩ := Except.bind_eq_ok.mp h
  obtain ⟨_, _, h⟩ := Except.bind_eq_ok.mp h
  cases h
  exact Except.ok.inj ((Except.mapError_eq_ok.mp hkey).symm.trans (Except.mapError_eq_ok.mp hparse))

section
variable {projection projection' : GroupProjection} {item : CanonicalGroupEvent}

/-- An entry is replaced by an event that sets the member and is no earlier; nothing else changes
it. -/
theorem member_applyItem (happly : applyItem limits projection item = .ok projection') :
    (∃ status roles,
        eventAction item.event limits = .ok (.setMember groupId pubkey status roles) ∧
        (∀ current, projection.member groupId pubkey = some current →
          current.lastTuple ≤ item.tuple) ∧
        projection'.member groupId pubkey =
          some ⟨pubkey, status, roles, item.event.id, item.tuple⟩) ∨
      ((∀ status roles,
          eventAction item.event limits = .ok (.setMember groupId pubkey status roles) →
          ∃ current, projection.member groupId pubkey = some current ∧
            item.tuple < current.lastTuple) ∧
        projection'.member groupId pubkey = projection.member groupId pubkey) := by
  obtain ⟨action, haction, _, rfl⟩ := applyItem_eq_ok.mp happly
  have hkeep : (∀ status roles, action ≠ .setMember groupId pubkey status roles) →
      (action.memberWrite item).elim projection.members (fun write =>
        Lww.put MemberState.lastTuple projection.members write.1 write.2) =
        projection.members ∨ ∃ key value, key ≠ toLex (groupId, pubkey) ∧
          (action.memberWrite item).elim projection.members (fun write =>
            Lww.put MemberState.lastTuple projection.members write.1 write.2) =
            Lww.put MemberState.lastTuple projection.members key value := by
    intro hne
    cases action with
    | setMember target key status roles =>
      refine .inr ⟨_, _, fun heq => hne status roles ?_, rfl⟩
      cases heq
      rfl
    | _ => exact .inl rfl
  by_cases hsets : ∃ status roles, action = .setMember groupId pubkey status roles
  · obtain ⟨status, roles, rfl⟩ := hsets
    have hmember : (ProjectionAction.after item projection
        (.setMember groupId pubkey status roles)).member groupId pubkey =
        (Lww.put MemberState.lastTuple projection.members (toLex (groupId, pubkey))
          ⟨pubkey, status, roles, item.event.id, item.tuple⟩)[toLex (groupId, pubkey)]? := rfl
    rw [hmember, Lww.getElem?_put]
    split
    · next hle => exact .inl ⟨status, roles, haction, hle.2, rfl⟩
    · next hlt =>
      refine .inr ⟨fun _ _ _ => ?_, rfl⟩
      by_contra hno
      refine hlt ⟨rfl, fun current hcurrent => ?_⟩
      by_contra hle
      exact hno ⟨current, hcurrent, not_le.mp hle⟩
  · refine .inr ⟨fun status roles hother => ?_, ?_⟩
    · rw [haction] at hother
      exact absurd ⟨status, roles, Except.ok.inj hother⟩ hsets
    · have hne : ∀ status roles, action ≠ .setMember groupId pubkey status roles :=
        fun status roles heq => hsets ⟨status, roles, heq⟩
      rcases hkeep hne with hsame | ⟨key, value, hkey, hput⟩
      · exact congrArg (fun members => members[toLex (groupId, pubkey)]?) hsame
      · have hmembers := congrArg (fun members => members[toLex (groupId, pubkey)]?) hput
        refine hmembers.trans ?_
        rw [Lww.getElem?_put, if_neg fun h => hkey h.1]
        rfl

end

end Tangle
