import Tangle.Groups.Membership
import Tangle.Runtime.Script

/-!
# Members who hold the permanent override

The policy refuses the removal of a member who holds the permanent override. It looks at no other
event that writes the member's entry: a put-user event that names the member gives it the roles of
its own tags and no others. `protectedAdmin_kept_iff` says when an accepted event leaves such a
member as it was, and that this one kind is the only one to look at.
-/

namespace Tangle

open GroupEventView

/-- A current member with the permanent override. -/
def MemberState.IsProtected (member : MemberState) : Prop :=
  member.status = .member ∧ member.roles.contains RoleName.permanentRelayOverride = true

instance (member : MemberState) : Decidable member.IsProtected :=
  inferInstanceAs (Decidable (_ ∧ _))

/-- The key is that of a current member with the permanent override. -/
def GroupProjection.Protects (projection : GroupProjection) (groupId : GroupId)
    (pubkey : PublicKeyHex) : Prop :=
  ∃ member, projection.member groupId pubkey = some member ∧ member.IsProtected

instance (projection : GroupProjection) (groupId : GroupId) (pubkey : PublicKeyHex) :
    Decidable (projection.Protects groupId pubkey) :=
  match h : projection.member groupId pubkey with
  | none => .isFalse fun ⟨_, hsome, _⟩ => by cases h.symm.trans hsome
  | some member =>
    if hprotected : member.IsProtected then
      .isTrue ⟨member, h, hprotected⟩
    else
      .isFalse fun ⟨_, hsome, hyes⟩ => by
        cases h.symm.trans hsome
        exact hprotected hyes

/-- A put-user event that names the member without the override, and no earlier than the member's
entry. -/
def Demotes (item : CanonicalGroupEvent) (pubkey : PublicKeyHex) (member : MemberState) : Prop :=
  kindU32 item.event = kindGroupPutUser ∧ member.lastTuple ≤ item.tuple ∧
    ∃ roles, memberTarget item.event = .ok (pubkey, roles) ∧
      roles.contains RoleName.permanentRelayOverride = false

section
variable {policy : GroupWritePolicy} {event : PocketEvent} {groupId : GroupId} {kind : Kind}
  {auth : GroupAuthContext} {pubkey : PublicKeyHex} {member : MemberState}

/-- A protected member is a protected admin to the policy. -/
theorem isProtectedAdmin_of_isProtected
    (hmember : policy.projection.member groupId pubkey = some member)
    (hprotected : member.IsProtected) : policy.isProtectedAdmin groupId pubkey = true := by
  obtain ⟨hstatus, hrole⟩ := hprotected
  unfold GroupWritePolicy.isProtectedAdmin GroupWritePolicy.hasRelayOverride
  rw [hmember, Option.filter_some, hstatus]
  simp [hrole]

/-- **When a protected member stays one.** Of all moderation events that the policy accepts, from
whomever, a protected member is left without its override by those alone that demote it: put-user
events of the group that name it without the override and are no earlier than its entry. -/
theorem protectedAdmin_kept_iff {limits : GroupLimitsConfig} {offset : StoreOffset}
    {outcome : ProjectionApplyOutcome} {projection' : GroupProjection} {protectedIn : GroupId}
    (hclass : classifyGroupEvent event limits = .ok (.moderation kind groupId))
    (haccept : (policy.checkEvent event (.moderation kind groupId) auth).Succeeds)
    (happly : policy.projection.applyCanonicalEvent event offset limits =
      .ok (outcome, projection'))
    (hmember : policy.projection.member protectedIn pubkey = some member)
    (hprotected : member.IsProtected) :
    projection'.Protects protectedIn pubkey ↔
      ¬(protectedIn = groupId ∧ Demotes ⟨event, offset⟩ pubkey member) := by
  have happly : applyItem limits policy.projection ⟨event, offset⟩ = .ok projection' := by
    rw [applyItem, happly]
    rfl
  have hvalue : kind.value = kindU32 event := congrArg Kind.value (kind_of_class (.inl hclass))
  rcases @member_applyItem limits protectedIn pubkey _ _ _ happly with
    ⟨status, roles, haction, hlater, hafter⟩ | ⟨hearlier, hafter⟩
  · unfold GroupProjection.Protects
    obtain ⟨⟨kind', hclass'⟩, htarget, hstatus⟩ := eventAction_eq_setMember.mp haction
    cases hclass.symm.trans hclass'
    have hle := hlater member hmember
    cases status with
    | removed =>
      -- the target of an accepted removal is not protected
      have hkind : kindU32 event = kindGroupRemoveUser := by
        unfold membershipStatus at hstatus
        split at hstatus
        · cases hstatus
        · assumption
        · cases hstatus
      obtain ⟨target, hread, hnot⟩ :=
        GroupWritePolicy.target_of_accepted_removal haccept (hvalue.trans hkind)
      obtain rfl := memberTarget_of_targetPubkey hread htarget
      cases hnot.symm.trans (isProtectedAdmin_of_isProtected hmember hprotected)
    | member =>
      have hkind : kindU32 event = kindGroupPutUser := by
        unfold membershipStatus at hstatus
        split at hstatus
        · assumption
        · cases hstatus
        · cases hstatus
      rw [hafter]
      refine ⟨?_, fun hno => ⟨_, rfl, rfl, ?_⟩⟩
      · rintro ⟨member', hsome, _, hrole⟩ ⟨_, _, _, roles', htarget', hlacks⟩
        cases hsome
        cases htarget.symm.trans htarget'
        cases hlacks.symm.trans hrole
      · cases hcontains : roles.contains RoleName.permanentRelayOverride with
        | true => rfl
        | false => exact absurd ⟨rfl, hkind, hle, roles, htarget, hcontains⟩ hno
  · unfold GroupProjection.Protects
    rw [hafter]
    refine iff_of_true ⟨member, hmember, hprotected⟩ ?_
    rintro ⟨rfl, hkind, hle, roles, htarget, _⟩
    have hstatus : membershipStatus (kindU32 event) = some .member := by
      rw [hkind]
      rfl
    obtain ⟨current, hcurrent, hlt⟩ := hearlier .member roles
      (eventAction_eq_setMember.mpr ⟨⟨kind, hclass⟩, htarget, hstatus⟩)
    cases hmember.symm.trans hcurrent
    exact absurd hle (not_le.mpr hlt)

end

namespace Sample

def deputy : PublicKeyHex := .repeated 'c' (Eq.refl true)

/-- The owner creates a group and makes two keys admins of it for good. -/
def twoAdmins : List ScriptLine :=
  [.start config 100, .submit (farmEvent owner 9007 10 []) (authAs owner),
    .submit (farmEvent owner 9000 20 [["p", member.text.toMessage], ["role", "relay_owner"]])
      (authAs owner),
    .submit (farmEvent owner 9000 21 [["p", deputy.text.toMessage], ["role", "relay_owner"]])
      (authAs owner)]

/-- One of the admins puts the other, with the roles given. -/
def putByDeputy (createdAt : UnixTimestamp) (roles : List (List String)) : PocketEvent :=
  farmEvent deputy 9000 createdAt (["p", member.text.toMessage] :: roles)

/-- The other is protected, and the policy accepts the event of the deputy, who is no admin of the
relay. -/
def AcceptsPut (event : PocketEvent) (state : GroupServiceState) : Prop :=
  state.projection.Protects farm member ∧ state.authority.isAdmin event.pubkey = false ∧
    validateClientGroupEventStructure event state.limits =
      .ok (.moderation (kindOf 9000) farm) ∧
    (state.writePolicy.checkEvent event (.moderation (kindOf 9000) farm) (authAs deputy)).Succeeds

instance {event : PocketEvent} {state : GroupServiceState} : Decidable (AcceptsPut event state) :=
  inferInstanceAs (Decidable (_ ∧ _ ∧ _ ∧ _))

/-- Whether the other is protected once the event is applied. -/
def protectedAfter (event : PocketEvent) (state : GroupServiceState) (store : PocketStore) :
    Except GroupError Bool :=
  (fun result => decide (result.2.Protects farm member)) <$>
    state.projection.applyCanonicalEvent event (relay.db.nextOffset store.events) state.limits

end Sample

section
open Sample

/-- An admin of the relay's own role is put again, with the override among the roles: the write is
accepted, and the admin is one afterwards. -/
theorem protectedAdmin_kept_iff_putAgain : ∃ state store,
    relay.Reachable (.up (some state) store) ∧
      AcceptsPut (putByDeputy 30 [["role", "relay_owner"]]) state ∧
      ∃ member', state.projection.member farm member = some member' ∧
        ¬(farm = farm ∧ Demotes ⟨putByDeputy 30 [["role", "relay_owner"]],
          relay.db.nextOffset store.events⟩ member member') := by
  have hscript : relay.ScriptEnds (fun _ _ => true) twoAdmins fun state store =>
      AcceptsPut (putByDeputy 30 [["role", "relay_owner"]]) state ∧
        classifyGroupEvent (putByDeputy 30 [["role", "relay_owner"]]) state.limits =
          .ok (.moderation (kindOf 9000) farm) ∧
        protectedAfter (putByDeputy 30 [["role", "relay_owner"]]) state store = .ok true := by
    decide +kernel
  obtain ⟨state, store, hreach, haccepts, hclass, hafter⟩ := hscript.reaches
  obtain ⟨⟨outcome, projection'⟩, happly, hprotects⟩ := Except.map_eq_ok.mp hafter
  obtain ⟨⟨member', hmember, hprotected⟩, _, _, haccept⟩ := haccepts
  refine ⟨state, store, hreach.mono fun _ _ _ => trivial, ⟨⟨member', hmember, hprotected⟩, ‹_›,
    ‹_›, haccept⟩, member', hmember, ?_⟩
  exact (protectedAdmin_kept_iff hclass haccept happly hmember hprotected).mp
    (of_decide_eq_true hprotects)

/-- An admin puts another without roles. The guard of protected admins asks about removals only, so
the event is accepted, and the other is an ordinary member from then on. -/
theorem protectedAdmin_demoted : ∃ state store,
    relay.Reachable (.up (some state) store) ∧ AcceptsPut (putByDeputy 30 []) state ∧
      protectedAfter (putByDeputy 30 []) state store = .ok false := by
  have hscript : relay.ScriptEnds (fun _ _ => true) twoAdmins fun state store =>
      AcceptsPut (putByDeputy 30 []) state ∧
        protectedAfter (putByDeputy 30 []) state store = .ok false := by
    decide +kernel
  obtain ⟨state, store, hreach, hdemoted⟩ := hscript.reaches
  exact ⟨state, store, hreach.mono fun _ _ _ => trivial, hdemoted⟩

end

end Tangle
