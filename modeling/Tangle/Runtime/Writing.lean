import Tangle.Runtime.Serving

/-!
# What a write keeps

An event that the gate and the policy accept may be stored next: it creates a group only that is not
there and edits one only that is. Storing it, taking it, merging what it owes and replaying the
outbox of its group keep the store sound throughout; a write that succeeds has taken its own event
first and then the events it generated (`wp_storeGroupPocketEvent`).
-/

namespace Tangle

open GroupEventView

variable {relay : Relay} {sources : Sources} {must : StoredEvent → Prop}
  {state state' : GroupServiceState} {store store' : PocketStore}

/-! ## Merging records -/

/-- A record that was just planned is sound. -/
theorem recordSound_of_plan {event : PocketEvent} {eventClass : GroupEventClass}
    {limits : GroupLimitsConfig} {projection : GroupProjection} {authority : GroupAuthority}
    {cap : UInt32} {before : Option Bool} {records : List GroupOutboxRecord}
    {record : GroupOutboxRecord} {source : StoredEvent} (hsource : source ∈ store.events)
    (hnamed : projection.Named) (hevent : source.event = event)
    (hclass : classifyGroupEvent event limits = .ok eventClass)
    (hplan : planGroupOutboxRecords relay.pocket event eventClass projection authority cap before =
      .ok records) (hrecord :
        record ∈ records) : RecordSound relay sources store.events record := by
  subst hevent
  have hstatus := (owed_of_plan hplan hrecord).status
  refine ⟨⟨source, hsource, limits, eventClass, projection, authority, cap, before, records, hnamed,
    hclass, hplan, record, hrecord, rfl, rfl⟩, fun h => ?_, fun id h => ?_⟩
  · rcases hstatus with hstatus | ⟨_, hstatus⟩
    · cases hstatus.symm.trans h
    · cases hstatus.symm.trans h
  · rcases hstatus with hstatus | ⟨_, hstatus⟩
    · cases hstatus.symm.trans h
    · cases hstatus.symm.trans h

/-- The records have been merged: each is there with its payload, and nothing else is new. -/
structure Merged (records : List GroupOutboxRecord) (state state' : GroupServiceState)
    (store store' : PocketStore) : Prop where
  events : store'.events = store.events
  projection : state'.projection = state.projection
  present : ∀ record ∈ records, ∃ record', state'.outbox.get record.key = some record' ∧
    record'.payload = record.payload
  only : ∀ key record, state'.outbox.get key = some record →
    state.outbox.get key = some record ∨ record ∈ records

namespace GroupServiceState

/-- Merging a sound record serves what was served. -/
theorem wp_mergeRecord {record : GroupOutboxRecord} (h : Serves relay sources must state store)
    (hrecord : RecordSound relay sources store.events record) :
    WpState relay.db.handle (PocketStore.Sound relay sources) (mergeRecord record) state store
      (fun _ state' store' => Serves relay sources must state' store' ∧
        Continues state store state' store' ∧ Merged [record] state state' store store')
      fun _ state' store' => state' = state ∧ store' = store := by
  refine WpState.get_seq ?_
  refine WpState.check_seq h.sound (fun merged hmerge => ?_) fun _ _ => ⟨rfl, rfl⟩
  obtain ⟨inserted, outbox⟩ := merged
  rcases GroupOutbox.mergeIdempotent_cases (Except.mapError_eq_ok.mp hmerge) with
    ⟨rfl, rfl, existing, hget, hpayload⟩ | ⟨rfl, rfl, hget⟩
  · refine WpState.set_seq (WpState.pure h.sound ⟨h, .refl, rfl, rfl, fun r hr => ?_,
      fun _ _ hfound => .inl hfound⟩)
    cases List.mem_singleton.mp hr
    exact ⟨existing, hget, hpayload⟩
  · have hsound := h.sound.putRecord h.rows h.records hrecord
    refine WpState.set_seq (WpState.liftProg (Wp.perform h.sound hsound (fun _ _ => ?_)
      fun e he => (nomatch he)))
    refine ⟨⟨hsound, h.covers, h.rows.update record, h.records.update hrecord, h.signer,
      h.known, h.batch⟩,
      ⟨.change _ _, List.prefix_refl _, fun key found hfound => ?_⟩, rfl, rfl, fun r hr => ?_,
      fun key found hfound => ?_⟩
    · rw [GroupOutbox.get_update]
      split
      · next heq =>
        rw [heq, hfound] at hget
        cases hget
      · exact ⟨found, hfound, rfl⟩
    · cases List.mem_singleton.mp hr
      exact ⟨record, by rw [GroupOutbox.get_update, if_pos rfl], rfl⟩
    · rw [GroupOutbox.get_update] at hfound
      split at hfound
      · cases hfound
        exact .inr (.head _)
      · exact .inl hfound

/-- Merging sound records serves what was served. -/
theorem wp_mergeRecords {records : List GroupOutboxRecord}
    (h : Serves relay sources must state store)
    (hrecords : ∀ record ∈ records, RecordSound relay sources store.events record) :
    WpState relay.db.handle (PocketStore.Sound relay sources) (mergeRecords records) state store
      (fun _ state' store' => Serves relay sources must state' store' ∧
        Continues state store state' store' ∧ Merged records state state' store store')
      fun _ state' store' => Serves relay sources must state' store' ∧
        Continues state store state' store' := by
  unfold mergeRecords
  induction records generalizing state store with
  | nil =>
    exact WpState.pure h.sound ⟨h, .refl, rfl, rfl, fun _ h => (nomatch h),
      fun _ _ hfound => .inl hfound⟩
  | cons record rest ih =>
    rw [List.forM_cons]
    refine WpState.seq (wp_mergeRecord h (hrecords record (List.mem_cons_self ..)))
      (fun _ state₁ store₁ _ ⟨hserves, hcontinues, hmerged⟩ => ?_)
      fun _ state₁ store₁ _ ⟨hstate, hstore⟩ => by
        subst hstate hstore
        exact ⟨h, .refl⟩
    refine (ih hserves fun r hr => hmerged.events ▸ hrecords r (List.mem_cons_of_mem _ hr)).mono
      (fun _ state₂ store₂ _ ⟨hserves₂, hcontinues₂, hmerged₂⟩ => ?_)
      fun _ state₂ store₂ _ ⟨hserves₂, hcontinues₂⟩ => ⟨hserves₂, hcontinues.trans hcontinues₂⟩
    refine ⟨hserves₂, hcontinues.trans hcontinues₂, hmerged₂.events.trans hmerged.events,
      hmerged₂.projection.trans hmerged.projection, fun r hr => ?_, fun key found hfound => ?_⟩
    · rcases List.mem_cons.mp hr with rfl | hr
      · obtain ⟨kept, hkept, hpayload⟩ := hmerged.present r (.head _)
        obtain ⟨kept₂, hkept₂, hpayload₂⟩ := hcontinues₂.records _ _ hkept
        exact ⟨kept₂, hkept₂, hpayload₂.trans hpayload⟩
      · exact hmerged₂.present r hr
    · rcases hmerged₂.only key found hfound with hfound | hmem
      · refine (hmerged.only key found hfound).imp_right fun hmem => ?_
        obtain rfl := List.mem_singleton.mp hmem
        exact List.mem_cons_self ..
      · exact .inr (List.mem_cons_of_mem _ hmem)

end GroupServiceState

/-! ## Accepted events -/

/-- An accepted event may come next. -/
theorem next_of_accepted {event : PocketEvent} {eventClass : GroupEventClass}
    {auth : GroupAuthContext} (h : store.Sound relay sources)
    (hfresh : relay.db.Faithful → ∀ other ∈ store.events, other.event.id ≠ event.id)
    (hclient : sources.client event)
    (hclass : classifyGroupEvent event state.limits = .ok eventClass)
    (hpolicy : (state.writePolicy.checkEvent event eventClass auth).Succeeds) :
    Serves.Next relay sources state.projection store
      ⟨event, relay.db.nextOffset store.events⟩ where
  offset := PocketDb.lt_nextOffset h.arrived.ordered
  fresh := hfresh
  origin := .client hclient
  made groupId hsets := by
    refine hsets.makes_or_edits.imp_right fun ⟨hwide, hkind⟩ => ?_
    cases (classifyGroupEvent_widest hclass).symm.trans hwide
    refine (group_of_policy hpolicy).2 ?_
    rw [eventKind_value, hkind]
    decide
  created groupId hcreates := by
    obtain ⟨hwide, hkind⟩ := hcreates.moderates
    cases (classifyGroupEvent_widest hclass).symm.trans hwide
    exact (group_of_policy hpolicy).1 ((eventKind_value event).trans hkind)

/-- Taking a deletion of a group does not fail. -/
theorem takes_of_deletion {event : PocketEvent} {eventClass : GroupEventClass}
    {offset : StoreOffset} (hdeletion : Deletion ⟨event, offset⟩)
    (hclass : classifyGroupEvent event state.limits = .ok eventClass) :
    (membershipAdminSnapshotState state.projection event eventClass).Succeeds ∧
      (applyItem state.limits state.projection ⟨event, offset⟩).Succeeds := by
  obtain ⟨groupId, hdeletes⟩ := hdeletion
  obtain ⟨hwide, hkind⟩ := hdeletes.moderates
  cases (classifyGroupEvent_widest hclass).symm.trans hwide
  refine ⟨⟨none, if_neg ?_⟩, ?_⟩
  · rw [eventKind_value, hkind]
    decide
  · rw [applyItem_eq, hdeletes.action hclass, Except.ok_bind, perform_succeeds rfl]
    exact ⟨_, rfl⟩

namespace GroupServiceState

/-- What a write that succeeded has done after its event was stored and taken: it planned the
records the event owes, merged them, and replayed the outbox of the group. -/
structure Generated (relay : Relay) (sources : Sources) (must : StoredEvent → Prop)
    (event : PocketEvent) (eventClass : GroupEventClass) (before : Option Bool) (groupId : GroupId)
    (records : List GroupOutboxRecord) (state merged state' : GroupServiceState)
    (store mergedStore store' : PocketStore) : Prop where
  planned : state.planOutboxRecords relay.pocket event eventClass before = .ok records
  merge : Merged records state merged store mergedStore
  kept : Continues state store merged mergedStore
  keyed : merged.outbox.Keyed
  served : Served relay sources must
    (GeneratedFor relay state.builder (merged.outbox.replayPlanForGroup groupId)) state store
    state' store'
  replayed : Replayed relay (fun record => record.key.groupId == groupId) merged state' store'

/-- **Planning and working off the records of an event serves it**: its records are final or still
to be tried. -/
theorem wp_generateRecords {event : PocketEvent} {eventClass : GroupEventClass}
    {before : Option Bool} {groupId : GroupId} {source : StoredEvent} (hmust : MustSee must)
    (h : Serves relay sources must state store) (hsource : source ∈ store.events)
    (hevent : source.event = event)
    (hclass : classifyGroupEvent event state.limits = .ok eventClass)
    (hgroup : eventClass.groupId = some groupId) :
    WpState relay.db.handle (PocketStore.Sound relay sources)
      (generateRecords relay.pocket event eventClass before) state store
      (fun _ state' store' => ∃ records merged mergedStore, Generated relay sources must event
        eventClass before groupId records state merged state' store mergedStore store')
      (fun _ => FailedStep relay sources state store) := by
  refine WpState.get_seq ?_
  refine WpState.check_seq h.sound (fun records hrecords => ?_) fun _ _ =>
    (Served.refl (P := fun _ => True) h).failed hmust
  have hplan := Except.mapError_eq_ok.mp hrecords
  have hsoundRecords : ∀ record ∈ records, RecordSound relay sources store.events record :=
    fun record hrecord => recordSound_of_plan hsource h.covers.named hevent hclass hplan hrecord
  refine WpState.seq (wp_mergeRecords h hsoundRecords)
    (fun _ merged mergedStore _ ⟨hserves, hcontinues, hmerged⟩ => ?_)
    fun _ state' store' _ ⟨hserves, hcontinues⟩ => ⟨hserves.weaken hmust.deletions_le, hcontinues⟩
  have hmaterialize : materializeClass relay.pocket eventClass =
      materializeWith relay.pocket fun outbox =>
        outbox.replayPlanMatching fun record => record.key.groupId == groupId := by
    cases eventClass with
    | nonGroup => cases hgroup
    | _ => cases hgroup; rfl
  rw [hmaterialize]
  refine (wp_materializeWith hmust hserves).mono
    (fun _ state' store' _ ⟨hserved, hreplayed⟩ => ?_) fun _ state' store' _ hfailed =>
      hfailed.after hcontinues
  refine ⟨records, merged, mergedStore, hplan, hmerged, hcontinues, hserves.rows.keyed, ?_,
    hreplayed⟩
  exact (Served.of_same hserves hcontinues hmerged.events hmerged.projection).trans
    (hserved.mono fun item ⟨r, hr, hsign⟩ => ⟨r, hr, hcontinues.builder ▸ hsign⟩)

/-- What a write that succeeded has done: its event was accepted, stored, taken and saved, and what
it owes was generated. -/
structure Wrote (relay : Relay) (sources : Sources) (must : StoredEvent → Prop)
    (event : PocketEvent) (eventClass : GroupEventClass) (before : Option Bool) (groupId : GroupId)
    (projection : GroupProjection) (rows : BTreeMap Text ExtraValue)
    (records : List GroupOutboxRecord) (state merged state' : GroupServiceState)
    (store mergedStore store' : PocketStore) : Prop where
  accepted : ∃ auth, (state.writePolicy.checkEvent event eventClass auth).Succeeds
  override : membershipAdminSnapshotState state.projection event eventClass = .ok before
  takes : applyItem state.limits state.projection ⟨event, relay.db.nextOffset store.events⟩ =
    .ok projection
  generated : Generated relay sources must event eventClass before groupId records
    { state with projection := projection } merged state'
    { store with
      events := store.events ++ [⟨event, relay.db.nextOffset store.events⟩], projection := rows }
    mergedStore store'

/-- **What follows the storing of an event serves it**, the event included, whether or not its
snapshots could be stored. -/
theorem wp_afterSourceEventStored {event : PocketEvent} {eventClass : GroupEventClass}
    {groupId : GroupId} (hmust : MustSee must) (h : Serves relay sources must state store)
    (hnext : Serves.Next relay sources state.projection store
      ⟨event, relay.db.nextOffset store.events⟩)
    (hclass : classifyGroupEvent event state.limits = .ok eventClass)
    (hgroup : eventClass.groupId = some groupId)
    (haccept : ∃ auth, (state.writePolicy.checkEvent event eventClass auth).Succeeds) :
    WpState relay.db.handle (PocketStore.Sound relay sources)
      (afterSourceEventStored relay.pocket event eventClass
        (relay.db.nextOffset store.events)) state
      { store with events := store.events ++ [⟨event, relay.db.nextOffset store.events⟩] }
      (fun _ state' store' => ∃ before projection rows records merged mergedStore,
        Wrote relay sources must event eventClass before groupId projection rows records
          state merged
          state' store mergedStore store')
      (fun _ => FailedStep relay sources state store) := by
  have hsound := h.append hmust hnext
  have hcontinues : Continues state store state
      { store with events := store.events ++ [⟨event, relay.db.nextOffset store.events⟩] } :=
    ⟨.change _ _, List.prefix_append _ _, fun key record hget => ⟨record, hget, rfl⟩⟩
  have hrecords : state.outbox.RecordsSound relay sources
      (store.events ++ [⟨event, relay.db.nextOffset store.events⟩]) :=
    fun key record hget => (h.records key record hget).mono fun _ => List.mem_append_left _
  -- an event that could not be taken is no deletion of a group
  have hfailed : ¬Deletion ⟨event, relay.db.nextOffset store.events⟩ →
      FailedStep relay sources state store state
        { store with events := store.events ++ [⟨event, relay.db.nextOffset store.events⟩] } :=
    fun hnot => ⟨⟨hsound, (h.weaken hmust.deletions_le).passed hnext.offset hnot, h.rows, hrecords,
      h.signer, h.known, h.batch⟩, hcontinues⟩
  refine WpState.get_seq ?_
  refine WpState.check_seq hsound (fun before hbefore => ?_) fun error herror =>
    hfailed fun hdel => ?_
  · refine WpState.check_seq hsound (fun result hresult => ?_) fun error herror =>
      hfailed fun hdel => ?_
    · obtain ⟨outcome, projection⟩ := result
      have htakes : applyItem state.limits state.projection
          ⟨event, relay.db.nextOffset store.events⟩ = .ok projection :=
        applyItem_of_applyCanonicalEvent (Except.mapError_eq_ok.mp hresult)
      have hcovers := h.applied hmust hnext htakes
      have hpersist : persistClassProjection projection eventClass =
          persistGroupProjection projection groupId := by
        cases eventClass with
        | nonGroup => cases hgroup
        | _ => cases hgroup; rfl
      dsimp only
      rw [hpersist]
      refine WpState.set_seq (WpState.liftProg_seq (wp_persistGroupProjection
        (X := fun _ _ => False)
        hsound (hcovers.mono (fun _ ⟨hitem, hupTo⟩ => ⟨hitem, .inr hupTo⟩) fun _ h => h) groupId)
        (fun _ persisted hsound' ⟨rows, hpersisted⟩ => ?_) fun _ _ _ hX => hX.elim)
      subst hpersisted
      refine (wp_generateRecords hmust
        (⟨hsound', hcovers, h.rows, hrecords, h.signer, h.known, h.batch⟩ :
          Serves relay sources must { state with projection := projection } _)
        (List.mem_append_right _ (List.mem_singleton_self _)) rfl hclass hgroup).mono
        (fun _ state' store' _ ⟨records, merged, mergedStore, hgenerated⟩ => ?_)
        fun _ state' store' _ hfailed => ?_
      · exact ⟨before, projection, rows, records, merged, mergedStore, haccept,
          Except.mapError_eq_ok.mp hbefore, htakes, hgenerated⟩
      · refine ⟨hfailed.serves, Continues.trans ?_ hfailed.continues⟩
        exact ⟨.change _ _, List.prefix_append _ _, fun key record hget => ⟨record, hget, rfl⟩⟩
    · obtain ⟨projection, htakes⟩ := (takes_of_deletion hdel hclass).2
      obtain ⟨result, hresult, _⟩ := Except.map_eq_ok.mp htakes
      rw [hresult] at herror
      cases herror
  · obtain ⟨before, hbefore⟩ := (takes_of_deletion hdel hclass).1
    rw [hbefore] at herror
    cases herror

/-- What becomes of a write: it was stored, or the event was there and nothing has changed. -/
def WriteDone (relay : Relay) (sources : Sources) (must : StoredEvent → Prop)
    (event : PocketEvent) (eventClass : GroupEventClass) (groupId : GroupId)
    (state : GroupServiceState) (store : PocketStore) :
    GroupEventWrite → GroupServiceState → PocketStore → Prop
  | .stored _, state', store' => ∃ before projection rows records merged mergedStore,
    Wrote relay sources must event eventClass before groupId projection rows records state merged
      state' store mergedStore store'
  | .duplicate, state', store' => state' = state ∧ store' = store

/-- How a write fails: it was rejected and nothing has changed, or the storage failed. -/
def WriteFailed (relay : Relay) (sources : Sources) (state : GroupServiceState)
    (store : PocketStore) :
    GroupEventWriteError → GroupServiceState → PocketStore → Prop
  | .rejected _, state', store' => state' = state ∧ store' = store
  | .storage _, state', store' => FailedStep relay sources state store state' store'

/-- **A write keeps the store sound at every operation.** -/
theorem wp_storeGroupPocketEvent {event : PocketEvent} {eventClass : GroupEventClass}
    {auth : GroupAuthContext} {groupId : GroupId} (hmust : MustSee must)
    (h : Serves relay sources must state store)
    (hclass : classifyGroupEvent event state.limits = .ok eventClass)
    (hgroup : eventClass.groupId = some groupId)
    (hclient : (exec relay.db.handle (state.checkEvent event eventClass auth) store).1 = .ok () →
      sources.client event) :
    WpState relay.db.handle (PocketStore.Sound relay sources)
      (storeGroupPocketEvent relay.pocket event eventClass auth) state store
      (WriteDone relay sources must event eventClass groupId state store)
      (WriteFailed relay sources state store) := by
  have hstay : FailedStep relay sources state store state store :=
    (Served.refl (P := fun _ => True) h).failed hmust
  have hcheck := @wp_checkEvent relay state store event eventClass auth
    (PocketStore.Sound relay sources) h.sound
  refine WpState.get_seq (WpState.liftProg_seq (Y :=
    fun e => WriteFailed relay sources state store e state)
    (Wp.adapt (hcheck.mono (fun _ _ _ h => h) fun _ _ _ hstore => ⟨rfl, hstore⟩))
    (fun _ checked _ ⟨hchecked, haccept⟩ => ?_) fun _ _ _ hX => hX)
  subst hchecked
  refine WpState.liftProg_seq (Wp.perform (Q := fun present found => found = checked ∧
    present = relay.db.findById checked.events event.id) (X := fun _ _ => False) h.sound h.sound
    (fun present hread => ⟨rfl, (Except.ok.inj hread).symm⟩) fun e he => (nomatch he))
    (fun present found _ ⟨hfound, hpresent⟩ => ?_) fun _ _ _ hX => hX.elim
  subst hfound hpresent
  split
  · exact WpState.pure h.sound ⟨rfl, rfl⟩
  · next habsent =>
    have hnext (hrefuses : relay.db.refuses found.events event = none) :=
      @next_of_accepted relay sources state found event eventClass auth h.sound
        (fun hdb => hdb.fresh (Option.not_isSome_iff_eq_none.mp habsent) hrefuses)
        (hclient haccept) hclass (policy_of_checkEvent haccept)
    refine WpState.liftProg_seq (Y := fun e => WriteFailed relay sources state found e state)
      ((wp_storeEvent h.sound fun hrefuses => h.append hmust (hnext hrefuses)).mono
        (fun _ _ _ h => h) fun _ _ _ ⟨⟨_, he⟩, hrefused⟩ => ?_)
      (fun offset stored _ ⟨hrefuses, hoffset, hstored⟩ => ?_) fun _ _ _ hX => hX
    · subst he hrefused
      exact hstay
    · subst hoffset hstored
      have hnext := hnext hrefuses
      refine WpState.seq (WpState.adapt (wp_afterSourceEventStored hmust h hnext hclass hgroup
          ⟨auth, policy_of_checkEvent haccept⟩))
        (fun offsets state' store' hsound hwrote => ?_) fun _ _ _ _ hX => hX
      exact WpState.pure hsound hwrote

/-- The event of a write, and the events it generated, have been taken. -/
theorem Wrote.served {event : PocketEvent} {eventClass : GroupEventClass} {before : Option Bool}
    {groupId : GroupId} {projection : GroupProjection} {rows : BTreeMap Text ExtraValue}
    {records : List GroupOutboxRecord} {merged : GroupServiceState} {mergedStore : PocketStore}
    (h : Wrote relay sources must event eventClass before groupId projection rows records
      state merged
      state' store mergedStore store') :
    Served relay sources must (fun _ => True) state store state' store' where
  serves := h.generated.served.serves
  continues := by
    refine Continues.trans ?_ h.generated.served.continues
    exact ⟨.change _ _, List.prefix_append _ _, fun key record hget => ⟨record, hget, rfl⟩⟩
  applied := by
    obtain ⟨items, hevents, happly, _⟩ := h.generated.served.applied
    refine ⟨⟨event, relay.db.nextOffset store.events⟩ :: items, ?_, ?_, fun _ _ => trivial⟩
    · rw [hevents, List.append_assoc, List.singleton_append]
    · exact Except.foldlM_cons_ok.mpr ⟨projection, h.takes, happly⟩

/-- What a write has done serves every event of before. -/
theorem WriteDone.served {event : PocketEvent} {eventClass : GroupEventClass} {groupId : GroupId}
    {write : GroupEventWrite} (hserves : Serves relay sources must state store)
    (h : WriteDone relay sources must event eventClass groupId state store write state' store') :
    Served relay sources must (fun _ => True) state store state' store' := by
  cases write with
  | duplicate =>
    obtain ⟨hstate, hstore⟩ := h
    subst hstate hstore
    exact .refl hserves
  | stored offsets =>
    obtain ⟨before, projection, rows, records, merged, mergedStore, hwrote⟩ := h
    exact hwrote.served

end GroupServiceState

/-! ## Plain events -/

/-- An event of no group may come next. -/
theorem next_of_plain {event : PocketEvent} {projection : GroupProjection}
    {limits : GroupLimitsConfig} (h : store.Sound relay sources)
    (hfind : relay.db.findById store.events event.id = none)
    (hrefuses : relay.db.refuses store.events event = none)
    (hclass : classifyGroupEvent event limits = .ok .nonGroup) :
    Serves.Next relay sources projection store ⟨event, relay.db.nextOffset store.events⟩ where
  offset := PocketDb.lt_nextOffset h.arrived.ordered
  fresh hdb := hdb.fresh hfind hrefuses
  origin := .plain (classifyGroupEvent_widest hclass)
  made _ hsets := absurd hsets (PassedOver.not_sets (passedOver_of_nonGroup hclass))
  created _ hcreates :=
    absurd hcreates.makes (PassedOver.not_makes (passedOver_of_nonGroup hclass))

/-! ## The relay's step -/

/-- Without a group service a submission keeps the store sound. -/
theorem wp_submit_none {event : PocketEvent} {auth : GroupAuthContext}
    (h : store.Sound relay sources) :
    WpState relay.db.handle (PocketStore.Sound relay sources) (relay.submit event auth) none store
      (fun _ groups store' => groups = none ∧ store'.Sound relay sources)
      fun _ groups store' => groups = none ∧ store'.Sound relay sources := by
  refine wp_submit_off h fun hclass hfind hrefuses => ?_
  have hpassed : ∀ offset, PassedOver .widest ⟨event, offset⟩ :=
    fun offset => passedOver_of_nonGroup hclass
  have hnext := @next_of_plain relay sources store event .new .default h hfind hrefuses hclass
  exact h.append hnext.offset hnext.fresh hnext.origin
    (fun _ hsets => absurd hsets (PassedOver.not_sets (hpassed _)))
    fun _ hcreates => absurd hcreates.makes (PassedOver.not_makes (hpassed _))

/-- What becomes of an event that the relay has taken: nothing has changed, it was of no group and
was stored, or the service has written it. -/
inductive Submitted (relay : Relay) (sources : Sources) (must : StoredEvent → Prop)
    (event : PocketEvent) (state : GroupServiceState) (store : PocketStore) :
    GroupServiceState → PocketStore → Prop
  | unchanged : Submitted relay sources must event state store state store
  | plain {store' : PocketStore} : classifyGroupEvent event state.limits = .ok .nonGroup →
      Served relay sources must (fun _ => True) state store state store' →
      store'.events = store.events ++ [⟨event, relay.db.nextOffset store.events⟩] →
      Submitted relay sources must event state store state store'
  | wrote {eventClass : GroupEventClass} {before : Option Bool} {groupId : GroupId}
      {projection : GroupProjection} {rows : BTreeMap Text ExtraValue}
      {records : List GroupOutboxRecord} {merged state' : GroupServiceState}
      {mergedStore store' : PocketStore} :
      classifyGroupEvent event state.limits = .ok eventClass →
      eventClass.groupId = some groupId →
      (∀ kind groupId, eventClass ≠ .relayGeneratedSnapshot kind groupId) →
      GroupServiceState.Wrote relay sources must event eventClass before groupId projection rows
        records state merged state' store mergedStore store' →
      Submitted relay sources must event state store state' store'

/-- What a submission has done serves every event of before. -/
theorem Submitted.served {event : PocketEvent} (hserves : Serves relay sources must state store)
    (h : Submitted relay sources must event state store state' store') :
    Served relay sources must (fun _ => True) state store state' store' := by
  cases h with
  | unchanged => exact .refl hserves
  | plain _ hserved _ => exact hserved
  | wrote _ _ _ hwrote => exact hwrote.served

/-- With the service, an event that the relay takes is left, stored or written. -/
theorem wp_submit_cases {event : PocketEvent} {auth : GroupAuthContext} (hmust : MustSee must)
    (h : Serves relay sources must state store)
    (hclient : ∀ eventClass,
      validateClientGroupEventStructure event state.limits = .ok eventClass →
      (state.writePolicy.checkEvent event eventClass auth).Succeeds → sources.client event) :
    WpState relay.db.handle (PocketStore.Sound relay sources) (relay.submit event auth) (some state)
      store
      (fun _ groups store' => ∃ state', groups = some state' ∧
        Submitted relay sources must event state store state' store')
      fun _ groups store' => ∃ state', groups = some state' ∧
        FailedStep relay sources state store state' store' := by
  have hstay : Submitted relay sources must event state store state store := .unchanged
  unfold Relay.submit handlePocketEvent
  split
  · exact WpState.pure h.sound ⟨state, rfl, hstay⟩
  refine WpState.get_seq ?_
  split
  · exact WpState.pure h.sound ⟨state, rfl, hstay⟩
  · next hgate =>
    have hclass := (class_of_gate hgate).1
    have hnext (hfind : relay.db.findById store.events event.id = none)
        (hrefuses : relay.db.refuses store.events event = none) :=
      @next_of_plain relay sources store event state.projection _ h.sound hfind hrefuses hclass
    refine WpState.liftProg ((wp_storePlainEvent h.sound fun hfind hrefuses =>
      h.append hmust (hnext hfind hrefuses)).mono
      (fun _ store' hsound hdone => ⟨state, rfl, ?_⟩) fun _ store' _ hstore => ⟨state, rfl, ?_⟩)
    · rcases hdone with hstore | ⟨hfind, hrefuses, hstore⟩
      · exact hstore ▸ hstay
      · subst hstore
        have hnext := hnext hfind hrefuses
        have htakes : applyItem state.limits state.projection
            ⟨event, relay.db.nextOffset store.events⟩ = .ok state.projection :=
          applyItem_eq.trans (Except.bind_eq_ok.mpr ⟨.skip, Except.bind_eq_ok.mpr
            ⟨_, hclass, rfl⟩, rfl⟩)
        have hcontinues : Continues state store state { store with
            events := store.events ++ [⟨event, relay.db.nextOffset store.events⟩] } :=
          ⟨.change _ _, List.prefix_append _ _, fun key record hget => ⟨record, hget, rfl⟩⟩
        refine .plain hclass ⟨⟨hsound, h.applied hmust hnext htakes, h.rows, fun key record hget =>
          ?_, h.signer, h.known, h.batch⟩, hcontinues, [_], rfl,
          Except.foldlM_cons_ok.mpr ⟨_, htakes, rfl⟩, fun _ _ => trivial⟩ rfl
        exact (h.records key record hget).mono hcontinues.mem_events
    · subst hstore
      exact (Served.refl (P := fun _ => True) h).failed hmust
  · next eventClass hnonGroup hgate =>
    obtain ⟨hclass, hnotSnapshot, _⟩ := class_of_gate hgate
    obtain ⟨groupId, hgroup⟩ : ∃ groupId, eventClass.groupId = some groupId := by
      cases eventClass with
      | nonGroup => exact absurd rfl hnonGroup
      | _ => exact ⟨_, rfl⟩
    refine WpState.get_seq ?_
    have hwrite := @GroupServiceState.wp_storeGroupPocketEvent relay sources must state store event
      eventClass auth groupId hmust h hclass hgroup fun haccept =>
        hclient _ hgate (policy_of_checkEvent haccept)
    refine WpState.seq (wp_withGroups (Y := fun _ _ _ => False) hwrite)
      (fun result groups store' hsound ⟨state', hgroups, hend⟩ => ?_) fun _ _ _ _ hX => hX.elim
    subst hgroups
    cases result with
    | ok write =>
      cases write with
      | stored offsets =>
        obtain ⟨before, projection, rows, records, merged, mergedStore, hwrote⟩ := hend
        exact WpState.pure hsound ⟨state', rfl, .wrote hclass hgroup hnotSnapshot hwrote⟩
      | duplicate =>
        obtain ⟨hstate, hstore⟩ := hend
        subst hstate hstore
        exact WpState.pure hsound ⟨state', rfl, hstay⟩
    | error failure =>
      cases failure with
      | rejected error =>
        obtain ⟨hstate, hstore⟩ := hend
        subst hstate hstore
        exact WpState.pure hsound ⟨state', rfl, hstay⟩
      | storage error => exact WpState.throw hsound ⟨state', rfl, hend⟩

/-- **With the service, an accepted event has been taken when the step succeeds.** -/
theorem wp_submit {event : PocketEvent} {auth : GroupAuthContext} (hmust : MustSee must)
    (h : Serves relay sources must state store)
    (hclient : ∀ eventClass,
      validateClientGroupEventStructure event state.limits = .ok eventClass →
      (state.writePolicy.checkEvent event eventClass auth).Succeeds → sources.client event) :
    WpState relay.db.handle (PocketStore.Sound relay sources) (relay.submit event auth) (some state)
      store
      (fun _ groups store' => ∃ state', groups = some state' ∧
        Served relay sources must (fun _ => True) state store state' store')
      fun _ groups store' => ∃ state', groups = some state' ∧
        FailedStep relay sources state store state' store' :=
  (wp_submit_cases hmust h hclient).mono
    (fun _ _ _ _ ⟨state', hgroups, hsubmitted⟩ => ⟨state', hgroups, hsubmitted.served h⟩)
    fun _ _ _ _ hfailed => hfailed

end Tangle
