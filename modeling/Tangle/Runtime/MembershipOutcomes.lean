import Tangle.Runtime.Memberships

/-!
# What becomes of a membership

A write stores its event and the events of what the relay owes, and each of them that sets the
member may take the entry. The entry of a member after a write is the latest of the entry before and
of these events, in the order of their times and ids (`membership_latest`), so a request to become a
member or to leave takes effect exactly when the latest of them says so (`membership_outcome`). A
request with an early time may be stored and have no effect.
-/

namespace Tangle

open GroupEventView

/-! ## Memberships in contention -/

/-- What an entry or an event says of a member, and when and by which event. -/
structure Membership where
  place : UnixTimestamp ×ₗ EventId
  status : MemberStatus
  roles : BTreeSet RoleName

/-- The time and the event of a tuple. -/
def ProjectionOrderTuple.place (tuple : ProjectionOrderTuple) : UnixTimestamp ×ₗ EventId :=
  toLex (tuple.createdAt, tuple.eventId)

theorem ProjectionOrderTuple.place_mono {tuple tuple' : ProjectionOrderTuple}
    (h : tuple ≤ tuple') : tuple.place ≤ tuple'.place := by
  rcases Prod.Lex.toLex_le_toLex.mp h with hlt | ⟨heq, hle⟩
  · exact Prod.Lex.toLex_le_toLex.mpr (.inl hlt)
  · refine Prod.Lex.toLex_le_toLex.mpr (.inr ⟨heq, ?_⟩)
    rcases Prod.Lex.toLex_le_toLex.mp hle with hlt | ⟨heq, _⟩
    · exact le_of_lt hlt
    · exact le_of_eq heq

def MemberState.membership (member : MemberState) : Membership :=
  ⟨member.lastTuple.place, member.status, member.roles⟩

/-- The payload of the membership that a request makes the relay generate. -/
def owedMembership (event : PocketEvent) : GroupEventClass → Option GroupOutboxPayload
  | .normal groupId =>
    match kindU32 event with
    | kindGroupJoinRequest =>
      some (GroupGeneratedEventBuilder.joinAcceptedPayload groupId event.pubkey (createdAt event))
    | kindGroupLeaveRequest =>
      some (GroupGeneratedEventBuilder.leaveAcceptedPayload groupId event.pubkey (createdAt event))
    | _ => none
  | _ => none

/-- A payload that a write of the event generates: of a record of the group that is still waiting,
or of the membership that the event requests. -/
inductive DuePayload (outbox : GroupOutbox) (event : PocketEvent) (eventClass : GroupEventClass)
    (groupId : GroupId) : GroupOutboxPayload → Prop
  | waiting {record} : record ∈ outbox.replayPlanForGroup groupId →
      DuePayload outbox event eventClass groupId record.payload
  | owed {payload} : owedMembership event eventClass = some payload →
      DuePayload outbox event eventClass groupId payload

/-- An event that a write of the event stores: the event, or a due one that is not stored. -/
inductive Arrives (relay : Relay) (state : GroupServiceState) (store : PocketStore)
    (event : PocketEvent) (eventClass : GroupEventClass) (groupId : GroupId) : PocketEvent → Prop
  | source : Arrives relay state store event eventClass groupId event
  | generated {payload generated} : DuePayload state.outbox event eventClass groupId payload →
      state.builder.signPayloadPocket relay.pocket payload = .ok generated →
      generated.id ≠ event.id → (∀ item ∈ store.events, item.event.id ≠ generated.id) →
      Arrives relay state store event eventClass groupId generated

/-- What contends for the entry of a member: the entry that is there, and what the arriving events
say. -/
inductive Contends (relay : Relay) (state : GroupServiceState) (store : PocketStore)
    (event : PocketEvent) (eventClass : GroupEventClass) (groupId : GroupId)
    (pubkey : PublicKeyHex) : Membership → Prop
  | entry {member} : state.projection.member groupId pubkey = some member →
      Contends relay state store event eventClass groupId pubkey member.membership
  | event {arriving status roles} :
      Arrives relay state store event eventClass groupId arriving →
      eventAction arriving state.limits = .ok (.setMember groupId pubkey status roles) →
      Contends relay state store event eventClass groupId pubkey
        ⟨toLex (arriving.createdAt, arriving.id), status, roles⟩

/-- The latest of some memberships. -/
def IsLatest (S : Membership → Prop) (membership : Membership) : Prop :=
  S membership ∧ ∀ other, S other → other.place ≤ membership.place

/-! ## The events of a write -/

section
variable {relay : Relay} {sources : Sources} {must : StoredEvent → Prop}
  {state state' merged : GroupServiceState} {store store' mergedStore : PocketStore}
  {event : PocketEvent} {eventClass : GroupEventClass} {groupId : GroupId} {before : Option Bool}
  {projection : GroupProjection} {rows : BTreeMap Text ExtraValue}
  {records : List GroupOutboxRecord} {pubkey : PublicKeyHex} {record : GroupOutboxRecord}

/-- A record's key names a stored event, so no record waits for an event that is not stored. -/
theorem GroupOutbox.RecordsSound.key_ne {outbox : GroupOutbox} {events : List StoredEvent}
    (h : outbox.RecordsSound relay sources events)
    (hfresh : ∀ item ∈ events, item.event.id ≠ event.id)
    {key : GroupOutboxKey} (hget : outbox.get key = some record) (hkeyed : outbox.Keyed) :
    key.sourceEventId ≠ event.id := by
  obtain ⟨source, hsource, _, _, _, _, _, _, _, _, _, hplan, planned, hmem, hkey, _⟩ :=
    (h key record hget).planned
  rw [← hkeyed key record hget, ← hkey, (owed_of_plan hplan hmem).key.1]
  exact hfresh source hsource

/-- The records planned for a request. -/
theorem plan_of_owedMembership {payload : GroupOutboxPayload} {authority : GroupAuthority}
    {cap : UInt32} (howed : owedMembership event eventClass = some payload)
    (hplan : planGroupOutboxRecords relay.pocket event eventClass projection authority cap before =
      .ok records) : ∃ record, records = [record] ∧ record.payload = payload ∧
        record.isRetryable = true ∧ eventClass.groupId = some record.key.groupId := by
  cases eventClass with
  | normal target =>
    unfold owedMembership at howed
    dsimp only at howed
    unfold planGroupOutboxRecords at hplan
    dsimp only at hplan
    split at howed
    · next hkind =>
      cases howed
      simp only [hkind, GroupEventView.pubkey_eq, Except.ok_bind, pendingRecord_eq] at hplan
      cases hplan
      exact ⟨_, rfl, rfl, rfl, rfl⟩
    · next hkind =>
      cases howed
      simp only [hkind, GroupEventView.pubkey_eq, Except.ok_bind, pendingRecord_eq] at hplan
      cases hplan
      exact ⟨_, rfl, rfl, rfl, rfl⟩
    · cases howed
  | _ => cases howed

/-- A record that waits after the merge waited before it, or was planned for the event. -/
theorem waiting_of_merged (hmerge : Merged records state merged store mergedStore)
    (hkeyed : merged.outbox.Keyed)
    (hplan : planGroupOutboxRecords relay.pocket event eventClass projection state.authority
      state.memberSnapshotCap before = .ok records)
    (hrecord : record ∈ merged.outbox.replayPlanForGroup groupId) :
    DuePayload state.outbox event eventClass groupId record.payload ∨
      record.payload.generatedKind ∈ [kindGroupMetadata, kindGroupAdmins, kindGroupMembers] := by
  obtain ⟨hget, hretry, hgroup⟩ := (GroupServiceState.mem_plan_iff hkeyed).mp hrecord
  rcases hmerge.only _ _ hget with hbefore | hplanned
  · refine .inl (.waiting ?_)
    exact GroupOutbox.mem_replayPlanMatching.mpr ⟨⟨_, hbefore⟩, hretry, hgroup⟩
  · rcases (owed_of_plan hplan hplanned).payload_kind with hsnapshot |
      ⟨target, rfl, hkind, hpayload⟩ | ⟨target, rfl, hkind, hpayload⟩
    · exact .inr hsnapshot
    · refine .inl (.owed ?_)
      simp only [owedMembership, hkind, hpayload]
    · refine .inl (.owed ?_)
      simp only [owedMembership, hkind, hpayload]

/-- A due payload is that of a record that waits after the merge. -/
theorem merged_of_due {payload : GroupOutboxPayload}
    (hmerge : Merged records state merged store mergedStore)
    (hcontinues : Continues state store merged mergedStore)
    (hkeyed : state.outbox.Keyed) (hkeyed' : merged.outbox.Keyed)
    (hnew : ∀ key record, state.outbox.get key = some record → key.sourceEventId ≠ event.id)
    (hplan : planGroupOutboxRecords relay.pocket event eventClass projection state.authority
      state.memberSnapshotCap before = .ok records)
    (hgroup : eventClass.groupId = some groupId)
    (hdue : DuePayload state.outbox event eventClass groupId payload) :
    ∃ record ∈ merged.outbox.replayPlanForGroup groupId, record.payload = payload := by
  have hplanned : ∀ record ∈ records, record.key.sourceEventId = event.id :=
    fun record hrecord => (owed_of_plan hplan hrecord).key.1
  cases hdue with
  | @waiting record hwaiting =>
    obtain ⟨hget, hretry, hkeep⟩ := (GroupServiceState.mem_plan_iff hkeyed).mp hwaiting
    obtain ⟨record', hget', hpayload⟩ := hcontinues.records _ _ hget
    rcases hmerge.only _ _ hget' with hsame | hnewer
    · cases hget.symm.trans hsame
      exact ⟨record, (GroupServiceState.mem_plan_iff hkeyed').mpr ⟨hget', hretry, hkeep⟩, rfl⟩
    · have hkey : record'.key = record.key := hkeyed' _ _ hget'
      exact absurd (hkey ▸ hplanned record' hnewer) (hnew _ _ hget)
  | owed howed =>
    obtain ⟨record, rfl, hpayload, hretry, htarget⟩ := plan_of_owedMembership howed hplan
    cases hgroup.symm.trans htarget
    obtain ⟨record', hget', hpayload'⟩ := hmerge.present record (.head _)
    rcases hmerge.only _ _ hget' with hsame | hnewer
    · exact absurd (hplanned record (.head _)) (hnew _ _ hsame)
    · cases List.mem_singleton.mp hnewer
      exact ⟨record, (GroupServiceState.mem_plan_iff hkeyed').mpr
        ⟨hget', hretry, beq_self_eq_true _⟩, hpayload⟩

/-- No stored event has the id of a due event but the due event. -/
def IdsTell (relay : Relay) (state : GroupServiceState) (event : PocketEvent)
    (eventClass : GroupEventClass) (groupId : GroupId) (events : List StoredEvent) : Prop :=
  ∀ payload generated, DuePayload state.outbox event eventClass groupId payload →
    state.builder.signPayloadPocket relay.pocket payload = .ok generated →
    ∀ item ∈ events, item.event.id = generated.id → item.event = generated

/-- The events that a write has stored and taken are those that arrive, and the snapshots it
generated. -/
structure Took (relay : Relay) (state : GroupServiceState) (store : PocketStore)
    (event : PocketEvent) (eventClass : GroupEventClass) (groupId : GroupId)
    (state' : GroupServiceState) (items : List StoredEvent) : Prop where
  taken : applyItems state.limits state.projection items = .ok state'.projection
  arrives : ∀ item ∈ items, Arrives relay state store event eventClass groupId item.event ∨
    kindU32 item.event ∈ [kindGroupMetadata, kindGroupAdmins, kindGroupMembers]
  all : ∀ arriving, Arrives relay state store event eventClass groupId arriving →
    ∃ item ∈ items, item.event = arriving
  /-- No arriving event has the id of a stored one. -/
  fresh : ∀ arriving, Arrives relay state store event eventClass groupId arriving →
    ∀ item ∈ store.events, item.event.id ≠ arriving.id
  told : ∀ arriving arriving', Arrives relay state store event eventClass groupId arriving →
    Arrives relay state store event eventClass groupId arriving' → arriving.id = arriving'.id →
    arriving = arriving'

theorem took_of_wrote (hdb : relay.db.Faithful) (h : Serves relay sources must state store)
    (hgroup : eventClass.groupId = some groupId)
    (hwrote : GroupServiceState.Wrote relay sources must event eventClass before groupId projection
      rows records state merged state' store mergedStore store')
    (hids : IdsTell relay state event eventClass groupId store'.events) :
    ∃ items, Took relay state store event eventClass groupId state' items := by
  obtain ⟨items, hevents, happly, hgenerated⟩ := hwrote.generated.served.applied
  have hplan := hwrote.generated.planned
  have hserves := hwrote.generated.served.serves
  rw [List.append_assoc, List.singleton_append] at hevents
  have hdistinct := hevents ▸ hserves.sound.ids hdb
  obtain ⟨_, hnewer, hacross⟩ := List.pairwise_append.mp hdistinct
  have hfresh : ∀ item ∈ store.events, item.event.id ≠ event.id :=
    fun item hitem => hacross item hitem _ (List.mem_cons_self ..)
  have hkeyed : state.outbox.Keyed := h.rows.keyed
  have hkeyed' := hwrote.generated.keyed
  have hnew : ∀ key record, state.outbox.get key = some record → key.sourceEventId ≠ event.id :=
    fun key record hget => h.records.key_ne hfresh hget hkeyed
  have hall : ∀ arriving, Arrives relay state store event eventClass groupId arriving →
      ∃ item ∈ (⟨event, relay.db.nextOffset store.events⟩ :: items : List StoredEvent),
        item.event = arriving := by
    intro arriving harriving
    cases harriving with
    | source => exact ⟨_, List.mem_cons_self .., rfl⟩
    | generated hdue hsign hne hnone =>
      obtain ⟨record, hrecord, rfl⟩ := merged_of_due hwrote.generated.merge hwrote.generated.kept
        hkeyed hkeyed' hnew hplan hgroup hdue
      obtain ⟨id, ⟨found, hfound, rfl⟩, hstored⟩ := hwrote.generated.replayed.stored record hrecord
      have hbuilder : merged.builder = state.builder := hwrote.generated.kept.builder
      rw [hbuilder, hsign] at hfound
      cases hfound
      obtain ⟨item, hitem, hid⟩ := hstored hdb
      have hsame := hids _ _ hdue hsign item hitem hid
      rw [hevents] at hitem
      rcases List.mem_append.mp hitem with hitem | hitem
      · exact absurd hid (hnone item hitem)
      · exact ⟨item, hitem, hsame⟩
  refine ⟨_, Except.foldlM_cons_ok.mpr ⟨projection, hwrote.takes, happly⟩, fun item hitem => ?_,
    hall, fun arriving harriving => ?_, fun arriving arriving' harriving harriving' hid => ?_⟩
  · rcases List.mem_cons.mp hitem with rfl | hitem
    · exact .inl .source
    · obtain ⟨record, hrecord, hsign⟩ := hgenerated item hitem
      rcases waiting_of_merged hwrote.generated.merge hkeyed' hplan hrecord with hdue | hsnapshot
      · refine .inl (.generated hdue hsign ?_ fun other hother => ?_)
        · exact Ne.symm ((List.pairwise_cons.mp hnewer).1 item hitem)
        · exact hacross other hother item (List.mem_cons_of_mem _ hitem)
      · exact .inr ((event_of_sign relay.lawful h.signer hsign).1 ▸ hsnapshot)
  · cases harriving with
    | source => exact hfresh
    | generated _ _ _ hnone => exact hnone
  · cases harriving with
    | source =>
      cases harriving' with
      | source => rfl
      | generated _ _ hne' _ => exact absurd hid.symm hne'
    | generated hdue hsign hne _ =>
      obtain ⟨item, hitem, heq⟩ := hall arriving' harriving'
      have hitem : item ∈ store'.events := hevents ▸ List.mem_append_right _ hitem
      exact ((hids _ _ hdue hsign item hitem (heq ▸ hid.symm)).symm.trans heq)

end

/-! ## The latest contender -/

section
variable {relay : Relay} {state state' : GroupServiceState} {store : PocketStore}
  {event : PocketEvent} {eventClass : GroupEventClass} {groupId : GroupId} {pubkey : PublicKeyHex}

/-- Places tell contenders apart when ids tell the events apart. -/
theorem Contends.eq_of_place {a b : Membership}
    (hfresh : ∀ member, state.projection.member groupId pubkey = some member →
      ∀ arriving, Arrives relay state store event eventClass groupId arriving →
        member.lastTuple.eventId ≠ arriving.id)
    (hids : ∀ arriving arriving', Arrives relay state store event eventClass groupId arriving →
      Arrives relay state store event eventClass groupId arriving' → arriving.id = arriving'.id →
      arriving = arriving')
    (ha : Contends relay state store event eventClass groupId pubkey a)
    (hb : Contends relay state store event eventClass groupId pubkey b)
    (hplace : a.place = b.place) : a = b := by
  cases ha with
  | entry hmember =>
    cases hb with
    | entry hmember' =>
      cases hmember.symm.trans hmember'
      rfl
    | event harrives _ =>
      exact absurd (congrArg (fun place => (ofLex place).2) hplace) (hfresh _ hmember _ harrives)
  | event harrives haction =>
    cases hb with
    | entry hmember' =>
      exact absurd (congrArg (fun place => (ofLex place).2) hplace.symm)
        (hfresh _ hmember' _ harrives)
    | event harrives' haction' =>
      obtain rfl := hids _ _ harrives harrives' (congrArg (fun place => (ofLex place).2) hplace)
      cases haction.symm.trans haction'
      rfl

/-- What arriving events and the entry contend with is what the taken events have written. -/
theorem membership_latest {items : List StoredEvent}
    (hfresh : ∀ member, state.projection.member groupId pubkey = some member →
      ∀ arriving, Arrives relay state store event eventClass groupId arriving →
        member.lastTuple.eventId ≠ arriving.id)
    (hids : ∀ arriving arriving', Arrives relay state store event eventClass groupId arriving →
      Arrives relay state store event eventClass groupId arriving' → arriving.id = arriving'.id →
      arriving = arriving')
    (htook : Took relay state store event eventClass groupId state' items)
    (membership : Membership) :
    (∃ member, state'.projection.member groupId pubkey = some member ∧
      member.membership = membership) ↔
      IsLatest (Contends relay state store event eventClass groupId pubkey) membership := by
  -- the entry afterwards is the latest of what was written
  have hmembers : Lww.Covers memberField.stamp _ _ state'.projection.members :=
    (memberField.applyItems state.limits htook.taken).symm ▸
      Lww.Reflects.self.puts (items.map (memberField.write state.limits))
  have hwrites : ∀ member, some (toLex (groupId, pubkey), member) ∈
      items.map (memberField.write state.limits) → ∃ arriving,
        Arrives relay state store event eventClass groupId arriving ∧
        eventAction arriving state.limits =
          .ok (.setMember groupId pubkey member.status member.roles) ∧
        member.lastTuple.place = toLex (arriving.createdAt, arriving.id) := by
    intro member hmem
    obtain ⟨item, hitem, hwrite⟩ := List.mem_map.mp hmem
    obtain ⟨target, key, status, roles, haction, hkey, rfl⟩ := memberField_write hwrite
    cases hkey
    refine ⟨item.event, (htook.arrives item hitem).resolve_right fun hsnapshot => ?_, haction, rfl⟩
    obtain ⟨_, _, hstatus⟩ := eventAction_eq_setMember.mp haction
    have hnone : ∀ kind ∈ [kindGroupMetadata, kindGroupAdmins, kindGroupMembers],
        membershipStatus kind = none := by decide
    cases (hnone _ hsnapshot).symm.trans hstatus
  have hcontends : ∀ other, Contends relay state store event eventClass groupId pubkey other →
      ∃ member, (state.projection.members[toLex (groupId, pubkey)]? = some member ∨
        some (toLex (groupId, pubkey), member) ∈ items.map (memberField.write state.limits)) ∧
        member.membership = other := by
    intro other hother
    cases hother with
    | entry hmember => exact ⟨_, .inl hmember, rfl⟩
    | @event arriving status roles harrives haction =>
      obtain ⟨item, hitem, rfl⟩ := htook.all arriving harrives
      refine ⟨⟨pubkey, status, roles, item.event.id, item.tuple⟩, .inr (List.mem_map.mpr
        ⟨item, hitem, ?_⟩), rfl⟩
      exact @actionWrite_of_action _ _ (fun item action => action.memberWrite item) _ _ _ haction
  have hshows : ∀ member, state'.projection.member groupId pubkey = some member →
      IsLatest (Contends relay state store event eventClass groupId pubkey) member.membership := by
    intro member hmember
    refine ⟨?_, fun other hother => ?_⟩
    · rcases hmembers.written hmember with hbefore | hwritten
      · exact .entry hbefore
      · obtain ⟨arriving, harrives, haction, hplace⟩ := hwrites member hwritten
        have heq : member.membership =
            ⟨toLex (arriving.createdAt, arriving.id), member.status, member.roles⟩ := by
          rw [MemberState.membership, hplace]
        exact heq ▸ .event harrives haction
    · obtain ⟨write, hwrite, rfl⟩ := hcontends other hother
      obtain ⟨found, hfound, hle⟩ := hmembers.latest hwrite
      cases hmember.symm.trans hfound
      exact ProjectionOrderTuple.place_mono hle
  refine ⟨fun ⟨member, hmember, heq⟩ => heq ▸ hshows member hmember, fun hlatest => ?_⟩
  obtain ⟨write, hwrite, _⟩ := hcontends membership hlatest.1
  obtain ⟨member, hmember, _⟩ := hmembers.latest hwrite
  refine ⟨member, hmember, ?_⟩
  obtain ⟨hcontender, hle⟩ := hshows member hmember
  exact hcontender.eq_of_place hfresh hids hlatest.1
    (le_antisymm (hlatest.2 _ hcontender) (hle _ hlatest.1))

end

/-! ## Requests -/

/-- What a request asks of the entry of its user: to be a member, with the roles when it names
them, or not to be one. -/
inductive Asked where
  | member (roles : Option (BTreeSet RoleName))
  | noMember

/-- The membership is one of a member, with the roles if they are asked for. -/
def Membership.Grants (membership : Membership) (roles : Option (BTreeSet RoleName)) : Prop :=
  membership.status = .member ∧ ∀ asked, roles = some asked → membership.roles = asked

/-- What is asked holds of the membership that `S` has, if it has one. -/
def Asked.Holds (asked : Asked) (S : Membership → Prop) : Prop :=
  match asked with
  | .member roles => ∃ membership, S membership ∧ membership.Grants roles
  | .noMember => ¬∃ membership, S membership ∧ membership.status = .member

/-- The requests: to join, to leave, to put and to remove a user. -/
inductive Requests (event : PocketEvent) :
    GroupEventClass → GroupId → PublicKeyHex → Asked → Prop
  | join {groupId} : kindU32 event = kindGroupJoinRequest →
      Requests event (.normal groupId) groupId event.pubkey (.member none)
  | leave {groupId} : kindU32 event = kindGroupLeaveRequest →
      Requests event (.normal groupId) groupId event.pubkey .noMember
  | put {kind groupId pubkey roles} : kind.value = kindGroupPutUser →
      memberTarget event = .ok (pubkey, roles) →
      Requests event (.moderation kind groupId) groupId pubkey (.member (some roles))
  | remove {kind groupId pubkey roles} : kind.value = kindGroupRemoveUser →
      memberTarget event = .ok (pubkey, roles) →
      Requests event (.moderation kind groupId) groupId pubkey .noMember

/-- The request is granted: what it asks holds of the entry of its user. -/
def GroupServiceState.Granted (state : GroupServiceState) (groupId : GroupId)
    (pubkey : PublicKeyHex)
    (asked : Asked) : Prop :=
  asked.Holds fun membership => ∃ member, state.projection.member groupId pubkey = some member ∧
    member.membership = membership

/-- **What becomes of a request.** In every state that a run from an empty store leads to, a request
that is accepted and stored leaves as the entry of its user the latest of what contends for it: of
the entry before, the event itself, and the events of what is due. So it is granted exactly when
that latest one says so. -/
theorem membership_outcome {relay : Relay} {state state' : GroupServiceState}
    {store store' : PocketStore} {event : PocketEvent} {eventClass : GroupEventClass}
    {groupId : GroupId} {pubkey : PublicKeyHex} {asked : Asked} {auth : GroupAuthContext}
    {offsets : List StoreOffset} (hdb : relay.db.Faithful)
    (hrun : relay.Leads relay.Orderly (.down .empty) (.up (some state) store))
    (hclass : classifyGroupEvent event state.limits = .ok eventClass)
    (hasks : Requests event eventClass groupId pubkey asked)
    (hwrite : execState relay.db.handle (GroupServiceState.storeGroupPocketEvent relay.pocket event
      eventClass auth) state store = (.ok (.stored offsets), state', store'))
    (hids : IdsTell relay state event eventClass groupId store'.events) :
    (∀ membership, (∃ member, state'.projection.member groupId pubkey = some member ∧
        member.membership = membership) ↔
      IsLatest (Contends relay state store event eventClass groupId pubkey) membership) ∧
    (state'.Granted groupId pubkey asked ↔
      asked.Holds (IsLatest (Contends relay state store event eventClass groupId pubkey))) := by
  have hserves : Serves relay _ Deletion state store :=
    Relay.Leads.kept .onlyDeletions (fun h => ⟨h, .inl rfl⟩) hrun
  -- the event is one more that clients may have sent
  let sources : Sources := ⟨fun sent => (relay.sourcesOf relay.Orderly
    (.up (some state) store)).client sent ∨ sent = event,
      (relay.sourcesOf relay.Orderly (.up (some state) store)).signer⟩
  have hknown : Serves relay sources Deletion state store :=
    hserves.within ⟨fun _ => .inl, fun _ h => h⟩
  have hgroup : eventClass.groupId = some groupId := by
    cases hasks with
    | join => rfl
    | leave => rfl
    | put => rfl
    | remove => rfl
  have hdone :=
    (@GroupServiceState.wp_storeGroupPocketEvent relay sources Deletion state store event
    eventClass auth groupId .onlyDeletions hknown hclass hgroup fun _ => .inr rfl).exec hwrite
  obtain ⟨before, projection, rows, records, merged, mergedStore, hwrote⟩ := hdone
  obtain ⟨items, htook⟩ := took_of_wrote hdb hknown hgroup hwrote hids
  have hfresh : ∀ member, state.projection.member groupId pubkey = some member → ∀ arriving,
      Arrives relay state store event eventClass groupId arriving →
        member.lastTuple.eventId ≠ arriving.id := by
    intro member hmember arriving harrives
    obtain ⟨item, hitem, hwrote⟩ := hserves.covers.members.written hmember
    obtain ⟨_, _, _, _, _, _, rfl⟩ := memberField_write hwrote
    exact htook.fresh arriving harrives item hitem
  have hlatest := membership_latest hfresh htook.told htook
  refine ⟨hlatest, ?_⟩
  unfold GroupServiceState.Granted
  rw [funext fun membership => propext (hlatest membership)]

/-! ## A join and a join with an early time -/

namespace Sample

/-- A user joins the group and leaves it. -/
def farmLeft : List ScriptLine :=
  [.start config 100, .submit (farmEvent owner 9007 10 []) (authAs owner),
    .submit (farmEvent member 9021 50 []) (authAs member),
    .submit (farmEvent member 9022 60 []) (authAs member)]

/-- The user asks to join again. -/
def joinAt (createdAt : UnixTimestamp) : PocketEvent :=
  farmEvent member 9021 createdAt [["note", "again"]]

/-- Whether the write of the request is stored and leaves a state and a store with the property. -/
def storesJoin (createdAt : UnixTimestamp) (state : GroupServiceState) (store : PocketStore)
    (P : GroupServiceState → PocketStore → Bool) : Bool :=
  match execState relay.db.handle (GroupServiceState.storeGroupPocketEvent relay.pocket
      (joinAt createdAt) (.normal farm) (authAs member)) state store with
  | (.ok (.stored _), state', store') => P state' store'
  | _ => false

theorem stored_of_storesJoin {createdAt : UnixTimestamp} {state : GroupServiceState}
    {store : PocketStore} {P : GroupServiceState → PocketStore → Bool}
    (h : storesJoin createdAt state store P = true) : ∃ offsets state' store',
      execState relay.db.handle (GroupServiceState.storeGroupPocketEvent relay.pocket
        (joinAt createdAt) (.normal farm) (authAs member)) state store =
          (.ok (.stored offsets), state', store') ∧ P state' store' = true := by
  unfold storesJoin at h
  split at h
  · next hrun => exact ⟨_, _, _, hrun, h⟩
  · cases h

/-- Whether the user is a member. -/
def isFarmMember (state : GroupServiceState) : Bool :=
  (state.projection.member farm member).any fun entry => entry.status == .member

end Sample

section
open Sample

/-- A removed user asks to join with a time after the removal's: the relay's put-user sorts behind
the removal, and the user is a member again. -/
theorem membership_outcome_rejoined : ∃ (state : GroupServiceState) (store : PocketStore)
    (state' : GroupServiceState),
    relay.Leads relay.Orderly (.down .empty) (.up (some state) store) ∧
      state'.Granted farm member (.member none) ∧
      (Asked.member none).Holds
      (IsLatest (Contends relay state store (joinAt 70) (.normal farm) farm
        member)) := by
  have hscript : relay.ScriptEnds Relay.stopsNoStart ([] ++ farmLeft) fun state store =>
      classifyGroupEvent (joinAt 70) state.limits = .ok (.normal farm) ∧
        state.outbox.replayPlanForGroup farm = [] ∧
        storesJoin 70 state store (fun state' store' => isFarmMember state' &&
          decide (∀ generated ∈ (state.builder.signPayloadPocket relay.pocket
            (GroupGeneratedEventBuilder.joinAcceptedPayload farm member 70)).toOption,
            ∀ item ∈ store'.events, item.event.id = generated.id → item.event = generated)) =
              true := by
    decide +kernel
  obtain ⟨w, state, store, hempty, hbefore, hmore, hclass, hwaiting, hstores⟩ :=
    hscript.leads Relay.orderly_of_stopsNoStart
  obtain ⟨offsets, state', store', hwrite, hmember⟩ := stored_of_storesJoin hstores
  rw [Bool.and_eq_true, decide_eq_true_eq] at hmember
  obtain ⟨hmember, htell⟩ := hmember
  cases hempty
  have hids : IdsTell relay state (joinAt 70) (.normal farm) farm store'.events := by
    intro payload generated hdue hsign item hitem hid
    cases hdue with
    | waiting hrecord =>
      rw [hwaiting] at hrecord
      cases hrecord
    | owed howed =>
      cases howed
      refine htell generated ?_ item hitem hid
      exact congrArg Except.toOption hsign
  have hgranted : state'.Granted farm member (.member none) := by
    unfold isFarmMember at hmember
    cases hentry : state'.projection.member farm member with
    | none =>
      rw [hentry] at hmember
      cases hmember
    | some entry =>
      rw [hentry] at hmember
      exact ⟨_, ⟨entry, hentry, rfl⟩, beq_iff_eq.mp hmember, fun _ h => (nomatch h)⟩
  exact ⟨state, store, state', hbefore.trans hmore, hgranted,
    (membership_outcome plainDb_faithful (hbefore.trans hmore) hclass (.join (by decide)) hwrite
      hids).2.mp hgranted⟩

/-- A removed user asks to join with a time before the removal's. The request is accepted and
stored, and the put-user that follows it sorts before the removal, so the user is no member. -/
theorem membership_not_granted : ∃ state store state' store' offsets,
    relay.Leads relay.Orderly (.down .empty) (.up (some state) store) ∧
      validateClientGroupEventStructure (joinAt 55) state.limits = .ok (.normal farm) ∧
      Requests (joinAt 55) (.normal farm) farm member (.member none) ∧
      execState relay.db.handle (GroupServiceState.storeGroupPocketEvent relay.pocket (joinAt 55)
        (.normal farm) (authAs member)) state store = (.ok (.stored offsets), state', store') ∧
      ¬state'.Granted farm member (.member none) := by
  have hscript : relay.ScriptEnds Relay.stopsNoStart ([] ++ farmLeft) fun state store =>
      validateClientGroupEventStructure (joinAt 55) state.limits = .ok (.normal farm) ∧
        storesJoin 55 state store (fun state' _ => !isFarmMember state') = true := by
    decide +kernel
  obtain ⟨w, state, store, hempty, hbefore, hmore, hgate, hstores⟩ :=
    hscript.leads Relay.orderly_of_stopsNoStart
  obtain ⟨offsets, state', store', hwrite, hno⟩ := stored_of_storesJoin hstores
  refine ⟨state, store, state', store', offsets, ?_, hgate, .join (by decide), hwrite, ?_⟩
  · cases hempty
    exact hbefore.trans hmore
  · rintro ⟨_, ⟨entry, hentry, rfl⟩, hstatus, _⟩
    have hstatus : entry.status = .member := hstatus
    rw [isFarmMember, hentry, Option.any_some, hstatus] at hno
    cases hno

end

end Tangle
