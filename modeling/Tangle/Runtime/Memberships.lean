import Tangle.Groups.Membership
import Tangle.Runtime.Runs

/-!
# Where memberships come from

A current member of a group was put there by a stored event. Either a client put the user, and in
the state that accepted the event its author was an owner, an admin or a member with the capability
that the event needs; or the relay did, for a join request of that user, which was accepted while
anyone could join the group (`member_provenance`).
-/

namespace Tangle

open GroupEventView

/-! ## The events of joins and leaves -/

section
variable {event : PocketEvent} {groupId : GroupId} {pubkey : PublicKeyHex}
  (htags : event.tags = toTagValues [["h".toList, groupId.text], ["p".toList, pubkey.text]])
include htags

/-- The event names its target and no roles. -/
theorem memberTarget_of_tags : memberTarget event = .ok (pubkey, ∅) := by
  have hdecodes := Decodes.of_texts htags
  have htarget : firstTagValue event "p" = .ok pubkey.text := by
    unfold firstTagValue lastTargetTag
    rw [hdecodes.visitTags]
    rfl
  have hroles : roleTags event = .ok ∅ := by
    unfold roleTags
    rw [hdecodes.visitTags]
    rfl
  have hkey : PublicKeyHex.new pubkey.text = .ok pubkey := by simp
  unfold memberTarget
  refine Except.bind_eq_ok.mpr ⟨_, htarget, Except.bind_eq_ok.mpr
    ⟨pubkey, Except.mapError_eq_ok.mpr hkey, ?_⟩⟩
  rw [hroles]
  rfl

end

/-! ## Accepted events -/

section
variable {policy : GroupWritePolicy} {event : PocketEvent} {auth : GroupAuthContext} {kind : Kind}
  {groupId : GroupId}

/-- The author has the right to moderate the group with the event: as an owner or an admin, or as a
member with the capability that the event needs. -/
def GroupWritePolicy.HasRight (policy : GroupWritePolicy) (event : PocketEvent) (kind : Nat)
    (groupId : GroupId) : Prop :=
  policy.authority.isAdmin event.pubkey = true ∨
    policy.isCurrentMember groupId event.pubkey = true ∧ ∃ required capabilities,
      requiredCapability kind event = .ok (some required) ∧
        policy.actorCapabilities groupId event.pubkey = .ok capabilities ∧
        capabilities.contains required = true

/-- The author of an accepted put-user has the right to put users. -/
theorem GroupWritePolicy.hasRight_of_accepted
    (h : (policy.checkEvent event (.moderation kind groupId) auth).Succeeds)
    (hkind : kind.value = kindGroupPutUser) : policy.HasRight event kind.value groupId := by
  have hne : kind.value ≠ kindGroupCreateGroup := by
    rw [hkind]
    decide
  obtain ⟨_, hcapability, _⟩ := moderation_accepted h hne
  obtain ⟨required, hrequired, hcapability⟩ := Except.bind_eq_ok.mp hcapability
  obtain ⟨needed, rfl⟩ : ∃ needed, required = some needed := by
    rw [hkind] at hrequired
    obtain ⟨role, _, hrequired⟩ := Except.bind_eq_ok.mp hrequired
    cases role with
    | true => cases hrequired; exact ⟨_, rfl⟩
    | false => cases hrequired; exact ⟨_, rfl⟩
  replace hcapability : policy.requireCapability groupId event.pubkey needed = .ok () := hcapability
  unfold requireCapability at hcapability
  split at hcapability
  · next hadmin => exact .inl hadmin
  · obtain ⟨capabilities, hactor, hcapability⟩ := Except.bind_eq_ok.mp hcapability
    split at hcapability
    · next hcontains =>
      refine .inr ⟨?_, needed, capabilities, hrequired, hactor, hcontains⟩
      -- who is no current member has no capability at all
      unfold actorCapabilities at hactor
      unfold isCurrentMember
      cases hmember : policy.projection.member groupId event.pubkey with
      | none =>
        rw [hmember] at hactor
        cases hactor
        simp at hcontains
      | some member =>
        rw [hmember] at hactor
        dsimp only at hactor
        split at hactor
        · cases hactor
          simp at hcontains
        · next hstatus => exact beq_iff_eq.mpr (not_not.mp hstatus)
    · cases hcapability

/-- An accepted join request is one to a group that anyone may join. -/
theorem GroupWritePolicy.open_of_accepted_join
    (h : (policy.checkEvent event (.normal groupId) auth).Succeeds)
    (hkind : kindU32 event = kindGroupJoinRequest) :
    policy.policy.publicJoin = true ∧ ∃ group, policy.requireActiveGroup groupId = .ok group ∧
      group.metadata.closed = false := by
  obtain ⟨decision, h⟩ := h
  obtain ⟨_, _, h⟩ := Except.bind_eq_ok.mp h
  obtain ⟨_, _, h⟩ := Except.bind_eq_ok.mp h
  simp only [hkind] at h
  obtain ⟨group, hgroup, h⟩ := Except.bind_eq_ok.mp h
  rw [GroupEventView.pubkey_eq, Except.ok_bind] at h
  split at h
  · cases h
  split at h
  · cases h
  · next hopen =>
    rw [Bool.or_eq_true, not_or, Bool.not_eq_true, Bool.not_eq_true', Bool.not_eq_false] at hopen
    exact ⟨hopen.2, group, hgroup, hopen.1⟩

end

/-! ## Runs -/

/-- A client put the user with the right to do so, in the state that accepted the event. -/
def Relay.PutByRight (relay : Relay) (allowed : World → Happening → World → Prop) (w : World)
    (groupId : GroupId) (event : PocketEvent) : Prop :=
  ∃ state auth kind, relay.SubmittedTo allowed w event auth state ∧
    validateClientGroupEventStructure event state.limits = .ok (.moderation kind groupId) ∧
    (state.writePolicy.checkEvent event (.moderation kind groupId) auth).Succeeds ∧
    state.writePolicy.HasRight event kind.value groupId

/-- The relay put the user for a stored join request, which was accepted in a state in which anyone
could join the group. -/
def Relay.PutForJoin (relay : Relay) (allowed : World → Happening → World → Prop) (w : World)
    (groupId : GroupId) (pubkey : PublicKeyHex) (event : PocketEvent) : Prop :=
  ∃ request ∈ w.store.events, ∃ signer state auth group,
    (relay.ConfiguredBefore allowed w signer ∧ event.pubkey = signer.publicKey ∧
      (GroupGeneratedEventBuilder.mk signer).signPayloadPocket relay.pocket
        (GroupGeneratedEventBuilder.joinAcceptedPayload groupId pubkey (createdAt request.event)) =
          .ok event) ∧
    (request.event.pubkey = pubkey ∧ kindU32 request.event = kindGroupJoinRequest ∧
      relay.SubmittedTo allowed w request.event auth state ∧
      validateClientGroupEventStructure request.event state.limits = .ok (.normal groupId) ∧
      (state.writePolicy.checkEvent request.event (.normal groupId) auth).Succeeds) ∧
    state.writePolicy.policy.publicJoin = true ∧
      state.writePolicy.requireActiveGroup groupId = .ok group ∧ group.metadata.closed = false

section
variable {relay : Relay} {allowed : World → Happening → World → Prop} {w : World}
  {event : PocketEvent} {groupId : GroupId}

/-- An accepted put-user was put by right. -/
theorem Relay.putByRight_of_accepted (h : relay.AcceptedBefore allowed w event)
    (hputs : Moderates .widest event kindGroupPutUser groupId) :
    relay.PutByRight allowed w groupId event := by
  obtain ⟨state, eventClass, auth, hsubmitted, hgate, hpolicy⟩ := h
  cases (classifyGroupEvent_widest (class_of_gate hgate).1).symm.trans hputs.1
  exact ⟨state, auth, eventKind event, hsubmitted, hgate, hpolicy,
    GroupWritePolicy.hasRight_of_accepted hpolicy hputs.2⟩

/-- A put-user that the relay generated was generated for an accepted join request. -/
theorem Relay.putForJoin_of_generated {source : StoredEvent} {record : GroupOutboxRecord}
    {pubkey : PublicKeyHex} {roles : BTreeSet RoleName}
    (h : w.store.Sound relay (relay.sourcesOf allowed w)) (hsource : source ∈ w.store.events)
    (hplanned : PlannedFor relay.pocket source.event record)
    (hgenerates : RelayGenerates relay (relay.sourcesOf allowed w) record.payload event)
    (hputs : Moderates .widest event kindGroupPutUser groupId)
    (htarget : memberTarget event = .ok (pubkey, roles)) :
    relay.PutForJoin allowed w groupId pubkey event := by
  obtain ⟨limits, eventClass, _, _, _, _, records, _, hclass, hplan, planned, hmem, _,
    hpayload⟩ := hplanned
  obtain ⟨builder, hsigner, hkey, hsign⟩ := hgenerates
  obtain ⟨hkind, hpubkey, _, htags⟩ := event_of_sign relay.lawful hkey hsign
  rw [← hpayload] at hsign hkind htags
  rw [hputs.2] at hkind
  rcases (owed_of_plan hplan hmem).payload_kind with hsnapshot | ⟨target, rfl, hjoin, hjoined⟩ |
    ⟨target, _, _, hleft⟩
  · rw [← hkind] at hsnapshot
    exact absurd hsnapshot (by decide)
  · rw [hjoined] at hsign htags
    cases (memberTarget_of_tags htags).symm.trans htarget
    have hnames : NamesGroup target (membershipPayload kindGroupPutUser target source.event.pubkey
        (createdAt source.event)).tags := namesGroup_membershipPayload
    obtain rfl := hnames.groupId_of_class htags hputs.1 rfl
    have hwide := classifyGroupEvent_widest hclass
    cases h.origin source hsource with
    | plain hplain => cases hplain.symm.trans hwide
    | client haccepted =>
      obtain ⟨state, sourceClass, auth, hsubmitted, hgate, hpolicy⟩ := haccepted
      cases (classifyGroupEvent_widest (class_of_gate hgate).1).symm.trans hwide
      obtain ⟨hpublic, group, hgroup, hopen⟩ :=
        GroupWritePolicy.open_of_accepted_join hpolicy hjoin
      exact ⟨source, hsource, builder.signer, state, auth, group, ⟨hsigner, hpubkey, hsign⟩,
        ⟨rfl, hjoin, hsubmitted, hgate, hpolicy⟩, hpublic, hgroup, hopen⟩
    | generated _ hother hgenerated =>
      have hgeneratedKind := kind_of_generated hother hgenerated
      rw [hjoin] at hgeneratedKind
      exact absurd hgeneratedKind (by decide)
  · rw [hleft] at hkind
    cases hkind

/-- **Where a membership comes from.** In every state that a run from an empty store leads to, a
current member's entry is that of a stored put-user of the group which names the member. A client
sent it that had the right to when it was accepted, or the relay generated it for an accepted join
request of the member. -/
theorem member_provenance {state : GroupServiceState} {store : PocketStore}
    {pubkey : PublicKeyHex} {member : MemberState}
    (hrun : relay.Leads relay.Orderly (.down .empty) (.up (some state) store))
    (hmember : state.projection.member groupId pubkey = some member)
    (hstatus : member.status = .member) : ∃ item ∈ store.events,
      item.event.id = member.lastEventId ∧ item.tuple = member.lastTuple ∧
      Moderates .widest item.event kindGroupPutUser groupId ∧
      memberTarget item.event = .ok (pubkey, member.roles) ∧
      (relay.PutByRight relay.Orderly (.up (some state) store) groupId item.event ∨
        relay.PutForJoin relay.Orderly (.up (some state) store) groupId pubkey item.event) := by
  have hserves : Serves relay _ Deletion state store :=
    Relay.Leads.kept .onlyDeletions (fun h => ⟨h, .inl rfl⟩) hrun
  obtain ⟨item, hitem, hwrite⟩ := hserves.covers.members.written hmember
  obtain ⟨target, key, status, roles, haction, hkey, rfl⟩ := memberField_write hwrite
  cases hkey
  cases hstatus
  have hputs : Moderates .widest item.event kindGroupPutUser groupId :=
    source_of_eventAction haction
  have htarget := (eventAction_eq_setMember.mp haction).2.1
  refine ⟨item, hitem, rfl, rfl, hputs, htarget, ?_⟩
  cases hserves.sound.origin item hitem with
  | plain hplain => cases hplain.symm.trans hputs.1
  | client haccepted => exact .inl (Relay.putByRight_of_accepted haccepted hputs)
  | generated hsource hplanned hgenerates =>
    exact .inr (Relay.putForJoin_of_generated hserves.sound hsource hplanned hgenerates hputs
      htarget)

end

/-! ## A member that joined -/

namespace Sample

/-- The group is made and joined, and the relay starts again. -/
def farmJoined : List ScriptLine :=
  [.start config 100, .submit (farmEvent owner 9007 10 []) (authAs owner),
    .submit (farmEvent member 9021 20 []) (authAs member), .stop, .start config 200]

end Sample

section
open Sample

/-- The user who asked to join an open group is a member by the put-user that the relay has
generated for the request, and the request was accepted when it was stored. -/
theorem member_provenance_joined : ∃ state store entry,
    relay.Leads relay.Orderly (.down .empty) (.up (some state) store) ∧
      state.projection.member farm member = some entry ∧ ∃ item ∈ store.events,
        item.event.id = entry.lastEventId ∧
        (relay.PutByRight relay.Orderly (.up (some state) store) farm item.event ∨
          relay.PutForJoin relay.Orderly (.up (some state) store) farm member item.event) := by
  have hscript : relay.ScriptEnds Relay.stopsNoStart ([] ++ farmJoined) fun state _ =>
      (state.projection.member farm member).any (fun entry => entry.status == .member) = true := by
    decide +kernel
  obtain ⟨w, state, store, hempty, hbefore, hmore, hentry⟩ :=
    hscript.leads Relay.orderly_of_stopsNoStart
  cases hempty
  cases hmember : state.projection.member farm member with
  | none =>
    rw [hmember] at hentry
    cases hentry
  | some entry =>
    rw [hmember] at hentry
    obtain ⟨item, hitem, hid, _, _, _, hsource⟩ :=
      member_provenance (hbefore.trans hmore) hmember (beq_iff_eq.mp hentry)
    exact ⟨state, store, entry, hbefore.trans hmore, hmember, item, hitem, hid, hsource⟩

end

end Tangle
