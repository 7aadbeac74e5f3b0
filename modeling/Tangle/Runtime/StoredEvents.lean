import Tangle.Runtime.EventDeletions

/-!
# What the store holds

Every stored event was submitted, or generated from a record that was planned for an event stored
before it (`Descends`). A generated event names the group of the event it descends from, so limits
that classify what was submitted classify what was generated, and a service that is up classifies
every event of its store (`Relay.Reaches.holdsDescended`). No two stored events share an id.
-/

namespace Tangle

open GroupEventView

section
variable {relay : Relay} {limits : GroupLimitsConfig} {event source : PocketEvent}
  {groupId : GroupId} {base base' : List StoredEvent} {record : GroupOutboxRecord}

/-! ## The class of a generated event -/

/-- The tag in which a generated event names its group. -/
def generatedGroupTagName (kind : Nat) : GroupTagName :=
  if nip29RelayGeneratedKindValues.contains kind then .d else .h

/-- The first tag of an owed payload. -/
theorem Owed.head_tags {pocket : PocketTypes} {eventClass : GroupEventClass}
    {projection : GroupProjection} {authority : GroupAuthority} {cap : UInt32}
    (h : Owed pocket event eventClass projection authority cap record) (hnamed : projection.Named) :
    record.payload.tags.head? = some
      [(generatedGroupTagName record.payload.generatedKind).asStr.toList,
        record.key.groupId.text] := by
  cases h with
  | metadata _ _ hgroup hpayload =>
    obtain ⟨tags, htags, hpayload⟩ := Except.bind_eq_ok.mp hpayload
    obtain ⟨_, _, htags⟩ := Except.bind_eq_ok.mp htags
    cases hpayload
    cases htags
    cases hnamed.group hgroup
    rfl
  | admins => rfl
  | members _ _ hpayload =>
    unfold GroupGeneratedEventBuilder.memberListSnapshotPayload at hpayload
    dsimp only at hpayload
    split at hpayload
    · cases hpayload
    · cases hpayload
      rfl
  | tooManyMembers => rfl
  | join => rfl
  | leave => rfl

/-- A tag that names the group, before tags that name none, is read as that group. -/
theorem requireGroupTag_of_head {name : GroupTagName} {tags : List (List Text)}
    (htags : event.tags = toTagValues tags) (hnames : NamesGroup groupId tags)
    (hhead : tags.head? = some [name.asStr.toList, groupId.text])
    (hlen : groupId.text.byteLen ≤ limits.maxGroupIdBytes.toNat) :
    requireGroupTag event name limits = .ok ⟨name, groupId⟩ := by
  obtain ⟨first, rest, rfl, hrest⟩ := hnames
  have hname : first.asStr.toList = name.asStr.toList :=
    List.head_eq_of_cons_eq (Option.some.inj hhead)
  have hread : GroupId.newWithMaxBytes groupId.text limits.maxGroupIdBytes.toNat = .ok groupId :=
    GroupId.newWithMaxBytes_eq_ok.mpr ⟨rfl, hlen⟩
  have hpair : (GroupEventTag.mk [name.asStr.toList, groupId.text]).indexedPair =
      some (name.asStr.toList, groupId.text) := by
    cases name with
    | h => rfl
    | d => rfl
  have hfirst : (GroupEventTag.mk [name.asStr.toList, groupId.text]).isNamed name.asStr = true :=
    beq_self_eq_true _
  have hextract : extractGroupTag event name limits = .ok (some ⟨name, groupId⟩) := by
    unfold extractGroupTag
    rw [(Decodes.of_texts htags).visitTags, List.map_cons, List.foldlM_cons, hname, hfirst,
      if_pos rfl,
      hpair]
    simp only [hread, Except.ok_bind]
    -- the tags after the first are passed over
    refine Except.bind_eq_ok.mpr ((Except.foldlM_succeeds (· = some groupId)
      (fun before tag htag hbefore => ⟨before, ?_, hbefore⟩) rfl).imp fun found ⟨hfound, hsame⟩ =>
        ⟨hfound, by rw [hsame]; rfl⟩)
    rw [isNamed_of_namesNoGroup hrest name tag htag]
    rfl
  unfold requireGroupTag
  rw [hextract]
  rfl

/-- The group id of a class is as short as the limits ask. -/
theorem byteLen_of_class {eventClass : GroupEventClass}
    (hclass : classifyGroupEvent event limits = .ok eventClass)
    (hgroup : eventClass.groupId = some groupId) :
    groupId.text.byteLen ≤ limits.maxGroupIdBytes.toNat := by
  obtain ⟨name, groupTag, htag, rfl⟩ := extractGroupTag_of_class hclass hgroup
  obtain ⟨found, hfound, htag⟩ := Except.bind_eq_ok.mp htag
  obtain ⟨tags, _, hfold⟩ := visitTags_eq_ok.mp hfound
  have hshort : ∀ groupId, found = some groupId →
      groupId.text.byteLen ≤ limits.maxGroupIdBytes.toNat := by
    refine Except.foldlM_invariant (fun found : Option GroupId => ∀ groupId, found = some groupId →
      groupId.text.byteLen ≤ limits.maxGroupIdBytes.toNat)
        (fun before tag after _ hbefore hnext => ?_)
      (fun _ h => by cases h) hfold
    split at hnext
    · split at hnext
      · cases hnext
      · obtain ⟨read, hread, hnext⟩ := Except.bind_eq_ok.mp hnext
        obtain ⟨htext, hlen⟩ := GroupId.newWithMaxBytes_eq_ok.mp hread
        rw [← htext] at hlen
        cases before with
        | none =>
          cases hnext
          exact fun _ h => Option.some.inj h ▸ hlen
        | some first =>
          dsimp only at hnext
          split at hnext
          · cases hnext
          · cases hnext
            exact hbefore
    · cases hnext
      exact hbefore
  cases found with
  | none => cases htag
  | some found =>
    cases htag
    exact hshort found rfl

/-- Limits that classify an event classify what is generated for it, as an event of its group. -/
theorem class_of_generated {builder : GroupGeneratedEventBuilder}
    (hsource : (classifyGroupEvent source limits).Succeeds)
    (hplanned : PlannedFor relay.pocket source record)
    (hkey : relay.pocket.publicKey builder.signer.secret = .ok builder.signer.publicKey)
    (hsign : builder.signPayloadPocket relay.pocket record.payload = .ok event) :
    (classifyGroupEvent event limits).Succeeds := by
  have hkind := @kind_of_generated relay ⟨fun _ => False, fun _ => True⟩ _ _ _ hplanned
    ⟨builder, trivial, hkey, hsign⟩
  obtain ⟨limits', eventClass, projection, authority, cap, before, records, hnamed, hclass, hplan,
    planned, hmem, hplannedKey, hpayload⟩ := hplanned
  have howed := owed_of_plan hplan hmem
  obtain ⟨hvalue, _, _, htags⟩ := event_of_sign relay.lawful hkey hsign
  have hlen : record.key.groupId.text.byteLen ≤ limits.maxGroupIdBytes.toNat := by
    obtain ⟨found, hfound⟩ := hsource
    cases (classifyGroupEvent_widest hfound).symm.trans (classifyGroupEvent_widest hclass)
    exact byteLen_of_class hfound (hplannedKey ▸ howed.key.2)
  have hnames := howed.namesGroup fun hgroup => hnamed.group hgroup
  have hhead := howed.head_tags hnamed
  rw [hpayload, hplannedKey] at hnames hhead
  have htag := requireGroupTag_of_head htags hnames hhead hlen
  rw [← hvalue] at htag
  have hkinds : ∀ kind ∈ [kindGroupMetadata, kindGroupAdmins, kindGroupMembers, kindGroupPutUser,
      kindGroupRemoveUser], nip29RelayGeneratedKindValues.contains kind = true ∨
        nip29RelayGeneratedKindValues.contains kind = false ∧
          nip29ModerationKindValues.contains kind = true := by decide
  unfold classifyGroupEvent isRelayGeneratedKind isModerationKind
  rw [GroupEventView.kind_eq, Except.ok_bind, eventKind_value]
  rcases hkinds _ hkind with hsnapshot | ⟨hnot, hmoderation⟩
  · rw [generatedGroupTagName, if_pos hsnapshot] at htag
    rw [if_pos hsnapshot, htag]
    exact ⟨_, rfl⟩
  · rw [generatedGroupTagName, hnot] at htag
    rw [hnot, hmoderation]
    exact ⟨_, Except.bind_eq_ok.mpr ⟨_, htag, rfl⟩⟩

/-! ## Descent -/

/-- The event is stored, or the relay generates it for a record that was planned for such an
event. -/
inductive Descends (relay : Relay) (base : List StoredEvent) : PocketEvent → Prop
  | stored {item : StoredEvent} : item ∈ base → Descends relay base item.event
  | generated {source event : PocketEvent} {record : GroupOutboxRecord}
      {builder : GroupGeneratedEventBuilder} :
      Descends relay base source → PlannedFor relay.pocket source record →
      relay.pocket.publicKey builder.signer.secret = .ok builder.signer.publicKey →
      builder.signPayloadPocket relay.pocket record.payload = .ok event →
      Descends relay base event

theorem Descends.mono (h : Descends relay base event) (hsub : ∀ item ∈ base, item ∈ base') :
    Descends relay base' event := by
  induction h with
  | stored hitem => exact .stored (hsub _ hitem)
  | generated _ hplanned hkey hsign ih => exact .generated ih hplanned hkey hsign

/-- Limits that classify what is stored classify what descends from it. -/
theorem Descends.classified (h : Descends relay base event)
    (hbase : ∀ item ∈ base, (classifyGroupEvent item.event limits).Succeeds) :
    (classifyGroupEvent event limits).Succeeds := by
  induction h with
  | stored hitem => exact hbase _ hitem
  | generated _ hplanned hkey hsign ih => exact class_of_generated ih hplanned hkey hsign

/-- Every event of the store descends from the base, which is in the store, and so does every event
that a record of the outbox was planned for. No two events share an id. -/
structure PocketStore.Descended (relay : Relay) (base : List StoredEvent) (store : PocketStore) :
    Prop where
  holds : ∀ item ∈ base, item ∈ store.events
  events : ∀ item ∈ store.events, Descends relay base item.event
  ids : relay.db.Faithful → store.events.Pairwise fun a b => a.event.id ≠ b.event.id
  records : ∀ (key : Text) (value : ExtraValue), store.outbox[key]? = some value →
    ∀ record, GroupOutboxRecord.fromJsonBytes value = .ok record →
      ∃ source, Descends relay base source ∧ PlannedFor relay.pocket source record

/-- That events descend from the base, part by part. -/
def descentUpkeep (relay : Relay) (base : List StoredEvent) : Upkeep where
  store := PocketStore.Descended relay base
  event := Descends relay base
  projection := GroupProjection.Named
  record record := ∃ source, Descends relay base source ∧ PlannedFor relay.pocket source record
  authority _ := True

theorem PocketStore.Descended.append {store : PocketStore} {offset : StoreOffset}
    (h : store.Descended relay base) (hevent : Descends relay base event)
    (hfresh : relay.db.Faithful → ∀ other ∈ store.events, other.event.id ≠ event.id) :
    PocketStore.Descended relay base
      { store with events := store.events ++ [⟨event, offset⟩] } where
  holds item hitem := List.mem_append_left _ (h.holds item hitem)
  events item hitem := by
    rcases List.mem_append.mp hitem with hitem | hitem
    · exact h.events item hitem
    · exact List.mem_singleton.mp hitem ▸ hevent
  ids hdb := List.pairwise_append.mpr ⟨h.ids hdb, List.pairwise_singleton _ _, fun a ha b hb =>
    List.mem_singleton.mp hb ▸ hfresh hdb a ha⟩
  records := h.records

theorem descentUpkeep_starts (relay : Relay) (limits : GroupLimitsConfig)
    (base : List StoredEvent) : (descentUpkeep relay base).Starts relay limits where
  taken h _ happly := GroupProjection.Named.applyItem h happly
  planned {event eventClass projection authority cap before records} h hevent hclass hplan :=
    fun record hrecord => ⟨event, hevent, limits, eventClass, projection, authority, cap, before,
      records, h, hclass, hplan, record, hrecord, rfl, rfl⟩
  marked := fun ⟨source, hsource, hplanned⟩ hkey hpayload =>
    ⟨source, hsource, hplanned.congr hkey hpayload⟩
  generated := fun ⟨_, hsource, hplanned⟩ _ hkey hsign => .generated hsource hplanned hkey hsign
  storeEvent h hevent hfresh := h.append hevent hfresh
  putRow h _ _ := ⟨h.holds, h.events, h.ids, h.records⟩
  putRecord h hrecord :=
    ⟨h.holds, h.events, h.ids, records_insert h.records hrecord⟩
  new := .new
  authorized _ := trivial
  dated h := ⟨h.group, h.member, h.role, h.tombstone, h.eventDeletion⟩
  scanned h hitem := h.events _ hitem
  loaded _ hload := loadGroupProjection_invariant (P := GroupProjection.Named) .new
    (fun _ _ _ _ hp hread => hp.loadRow hread)
    (fun _ _ hp => ⟨hp.group, hp.member, hp.role, hp.tombstone, hp.eventDeletion⟩) hload
  loadedRecords h hload hget := by
    obtain ⟨text, value, hrow, hread⟩ := exists_row_of_loadGroupOutbox hload hget
    exact h.records text value hrow _ hread
  eraseRow h := ⟨h.holds, h.events, h.ids, h.records⟩
  putCheckpoint h := ⟨h.holds, h.events, h.ids, h.records⟩

/-! ## Runs -/

/-- What is stored descends from what is stored, and the limits of a service that is up classify
all of it. -/
def World.Descended (relay : Relay) : World → Prop
  | .up (some state) store => store.Descended relay store.events ∧
      (descentUpkeep relay store.events).Holds relay state.limits state ∧
      ∀ item ∈ store.events, (classifyGroupEvent item.event state.limits).Succeeds
  | .up none store | .down store => store.Descended relay store.events

theorem PocketStore.Descended.grow {store : PocketStore} (h : store.Descended relay base) :
    store.Descended relay store.events where
  holds _ hitem := hitem
  events _ hitem := .stored hitem
  ids := h.ids
  records key value hrow record hread := by
    obtain ⟨source, hsource, hplanned⟩ := h.records key value hrow record hread
    exact ⟨source, hsource.mono h.holds, hplanned⟩

/-- A service whose records descend from the base, on a store that does. -/
theorem World.Descended.of_upkeep {state : GroupServiceState} {store : PocketStore}
    (hstore : store.Descended relay base)
    (hstate : (descentUpkeep relay base).Holds relay limits state)
    (hbase : ∀ item ∈ base, (classifyGroupEvent item.event limits).Succeeds) :
    World.Descended relay (.up (some state) store) := by
  obtain rfl := hstate.limits
  refine ⟨hstore.grow, ⟨hstate.projection, fun key record hget => ?_, hstate.signer, trivial, rfl⟩,
    fun item hitem => (hstore.events item hitem).classified hbase⟩
  obtain ⟨source, hsource, hplanned⟩ := hstate.records key record hget
  exact ⟨source, hsource.mono hstore.holds, hplanned⟩

/-- An event more in the store is one more to descend from. -/
theorem PocketStore.Descended.next {store : PocketStore} {offset : StoreOffset}
    (h : store.Descended relay store.events)
    (hfresh : relay.db.Faithful → ∀ other ∈ store.events, other.event.id ≠ event.id) :
    PocketStore.Descended relay (store.events ++ [⟨event, offset⟩])
      { store with events := store.events ++ [⟨event, offset⟩] } where
  holds _ hitem := hitem
  events _ hitem := .stored hitem
  ids hdb := List.pairwise_append.mpr ⟨h.ids hdb, List.pairwise_singleton _ _, fun a ha b hb =>
    List.mem_singleton.mp hb ▸ hfresh hdb a ha⟩
  records key value hrow record hread := by
    obtain ⟨source, hsource, hplanned⟩ := h.records key value hrow record hread
    exact ⟨source, hsource.mono fun _ => List.mem_append_left _, hplanned⟩

/-- The relay's step on an event keeps the descent, at every point of it. -/
theorem wp_submit_descended {groups : Option GroupServiceState} {store : PocketStore}
    (auth : GroupAuthContext) (h : World.Descended relay (.up groups store)) :
    WpState relay.db.handle (fun store' => store'.Descended relay store'.events)
      (relay.submit event auth) groups store
      (fun _ groups' store' => World.Descended relay (.up groups' store'))
      fun _ groups' store' => World.Descended relay (.up groups' store') := by
  cases groups with
  | none =>
    have hend : ∀ groups' (store' : PocketStore), groups' = none ∧
        store'.Descended relay store'.events → World.Descended relay (.up groups' store') := by
      rintro groups' store' ⟨rfl, hstore'⟩
      exact hstore'
    exact (wp_submit_off (C := fun store' => store'.Descended relay store'.events) h
      fun _ hfind hrefuses => h.next fun hdb => hdb.fresh hfind hrefuses).mono
      (fun _ groups' store' _ => hend groups' store') fun _ groups' store' _ => hend groups' store'
  | some state =>
    obtain ⟨hstore, hstate, hclassified⟩ := h
    have hwrite := @Upkeep.wp_submit_stores (descentUpkeep relay
        (store.events ++ [StoredEvent.mk event (relay.db.nextOffset store.events)])) relay
          state.limits _ state
      (descentUpkeep_starts relay state.limits _).toWrites store event auth
      (fun store' => store'.Descended relay store'.events) hstore (fun _ => .grow) rfl
      (fun _ _ _ _ => trivial) fun eventClass hclass hadmitted =>
        { part := @Descends.stored relay _ ⟨event, relay.db.nextOffset store.events⟩
            (List.mem_append_right _ (List.mem_singleton_self _))
          holds := ⟨hstate.projection, fun key record hget => by
            obtain ⟨source, hsource, hplanned⟩ := hstate.records key record hget
            exact ⟨source, hsource.mono fun _ => List.mem_append_left _, hplanned⟩,
            hstate.signer, trivial, rfl⟩
          stored := hstore.next hadmitted.fresh }
    have hend : ∀ groups' store', (∃ state', groups' = some state' ∧ (descentUpkeep relay
        (store.events ++ [⟨event, relay.db.nextOffset store.events⟩])).Outcome relay state.limits
          state store event auth state' store') → World.Descended relay (.up groups' store') := by
      rintro groups' store' ⟨state', rfl, houtcome⟩
      cases houtcome with
      | unchanged => exact ⟨hstore, hstate, hclassified⟩
      | stored hclass _ hholds hstore' =>
        refine .of_upkeep hstore' hholds fun item hitem => ?_
        rcases List.mem_append.mp hitem with hitem | hitem
        · exact hclassified item hitem
        · exact List.mem_singleton.mp hitem ▸ ⟨_, hclass⟩
    exact hwrite.mono (fun _ groups' store' _ => hend groups' store')
      fun _ groups' store' _ => hend groups' store'

/-- **Wherever a relay has got to, its events descend from its events**, and a service that is up
classifies them all. -/
theorem Relay.Reaches.descended {allowed : World → Happening → Prop} {w : World}
    (hw : relay.Reaches allowed w) : w.Descended relay := by
  refine hw.invariant (I := World.Descended relay) ?_ fun {w happening w'} h _ hstep => ?_
  · refine ⟨fun _ h => h, fun _ h => (nomatch h), fun _ => .nil, fun key value h => ?_⟩
    simp [PocketStore.empty] at h
  cases hstep with
  | @started config now store store' groups hrun =>
    obtain ⟨hstates, hresult⟩ := @Upkeep.keeps_start _ relay config now
      (descentUpkeep_starts relay config.limits store.events) store h
    have hend := hstates _ (Prog.run_mem_states _ _)
    unfold exec at hrun
    rw [hrun] at hend hresult
    cases groups with
    | none => exact PocketStore.Descended.grow hend
    | some state =>
      obtain ⟨hholds, seen, hseen, hclassified⟩ := hresult _ rfl state rfl
      exact .of_upkeep hend hholds fun item hitem => hclassified item (hseen.holds item hitem)
  | @startStopped config now store store' hmem =>
    exact PocketStore.Descended.grow ((@Upkeep.keeps_start _ relay config now
      (descentUpkeep_starts relay config.limits store.events) store h).1 store' hmem)
  | @submitted event auth groups store result groups' store' _ hrun =>
    have hend := (wp_submit_descended auth h).exec hrun
    cases result with
    | ok write => exact hend
    | error error => exact hend
  | submitStopped _ hmem => exact (wp_submit_descended _ h).1 _ hmem
  | @stopped groups store =>
    cases groups with
    | none => exact h
    | some state => exact h.1

end

end Tangle
