import Tangle.Runtime.Readable
import Tangle.Runtime.Starting

/-!
# The tables are the memory

Whatever a relay has gone through, the rows of a running service are those of its projection and of
its outbox: none is missing and none is stale. Each step of the service writes what it changes in
memory before anything else can fail, so the two agree at the end of every step, be it successful or
not (`Tracks`); a start makes them agree again after whatever a stopped one has left
(`wp_start_tracks`). With short group ids loading the tables gives the memory back
(`tables_hold_memory`).
-/

namespace Tangle

open GroupEventView

section
variable {relay : Relay} {limits : GroupLimitsConfig} {state : GroupServiceState}
  {store : PocketStore} {projection projection' : GroupProjection} {item : StoredEvent}

/-- The rows are those of the service's memory, and its records were planned. -/
structure Tracks (relay : Relay) (state : GroupServiceState) (store : PocketStore) : Prop where
  rows : HoldsRows state.projection.row store.projection
  records : HoldsRecords state.outbox store.outbox
  named : state.projection.Named
  planned : ∀ key record, state.outbox.get key = some record →
    ∃ event, PlannedFor relay.pocket event record
  signer : relay.pocket.publicKey state.builder.signer.secret = .ok state.builder.signer.publicKey

namespace Tracks

/-- Storing an event touches no row. -/
theorem withEvents (h : Tracks relay state store) (events : List StoredEvent) :
    Tracks relay state { store with events := events } :=
  ⟨h.rows, h.records, h.named, h.planned, h.signer⟩

/-- A record is replaced in memory and in the table. -/
theorem update (h : Tracks relay state store) {record : GroupOutboxRecord}
    (hrecord : ∃ event, PlannedFor relay.pocket event record) :
    Tracks relay { state with outbox := state.outbox.update record }
      { store with
        outbox := store.outbox.insert record.key.storageKey record.toJsonBytes } where
  rows := h.rows
  records := h.records.update record
  named := h.named
  planned key found hfound := by
    dsimp only at hfound
    rw [GroupOutbox.get_update] at hfound
    split at hfound
    · cases hfound
      exact hrecord
    · exact h.planned key found hfound
  signer := h.signer

/-- An event is taken and the rows of its group are written. -/
theorem takes (h : Tracks relay state store) {groupId : GroupId}
    (happly : applyItem limits state.projection item = .ok projection)
    (hgroup : ∀ other, OfGroup limits other item → other = groupId) :
    Tracks relay { state with projection := projection }
      { store with projection := putRows store.projection (groupRows projection groupId) } where
  rows := by
    refine h.rows.persistGroup fun key hnot => ?_
    rcases entry_applyItem happly key with ⟨hsame, _⟩ | ⟨value, other, hrow, hother, hof⟩
    · exact hsame.symm
    · exact absurd (hgroup other hof ▸ hother) (hnot value hrow)
  records := h.records
  named := h.named.applyItem happly
  planned := h.planned
  signer := h.signer

end Tracks

/-- The program keeps the tables and the memory together, however it ends. -/
def KeepsTracks (relay : Relay) {ε α : Type}
    (p : StatefulProg storeInterface GroupServiceState ε α) :
    Prop :=
  ∀ state store, Tracks relay state store →
    WpState relay.db.handle (fun _ => True) p state store (fun _ => Tracks relay)
      fun _ => Tracks relay

namespace KeepsTracks

variable {ε δ α β : Type} {p : StatefulProg storeInterface GroupServiceState ε α}

/-- Returning a value keeps the tables on the service's track. -/
theorem pure {a : α} : KeepsTracks relay
    (pure a : StatefulProg storeInterface GroupServiceState ε α) :=
  fun _ _ h => WpState.pure trivial h

/-- Throwing an error keeps the tables on the service's track. -/
theorem throw {e : ε} :
    KeepsTracks relay (throw e : StatefulProg storeInterface GroupServiceState ε α) :=
  fun _ _ h => WpState.throw trivial h

/-- One part after another keeps the tables on the service's track. -/
theorem bind {f : α → StatefulProg storeInterface GroupServiceState ε β} (hp : KeepsTracks relay p)
    (hf : ∀ a, KeepsTracks relay (f a)) : KeepsTracks relay (p >>= f) :=
  fun state store h => WpState.seq (hp state store h)
    (fun a state' store' _ h' => hf a state' store' h') fun _ _ _ _ h' => h'

/-- A check, and what follows when it passes. -/
theorem check {x : Except ε α} {f : α → StatefulProg storeInterface GroupServiceState ε β}
    (hf : ∀ a, x = .ok a → KeepsTracks relay (f a)) : KeepsTracks relay (liftM x >>= f) :=
  fun state store h => WpState.check_seq trivial (fun a ha => hf a ha state store h)
    fun _ _ => h

/-- Another error in place of the one thrown changes nothing. -/
theorem adapt {rename : ε → δ} (hp : KeepsTracks relay p) :
    KeepsTracks relay
      (ExceptT.adapt rename p : StatefulProg storeInterface GroupServiceState δ α) :=
  fun state store h => WpState.adapt (hp state store h)

/-- A loop keeps the tables on the service's track when its body does. -/
theorem forM {γ : Type} {l : List γ} {f : γ → StatefulProg storeInterface GroupServiceState ε PUnit}
    (hf : ∀ x ∈ l, KeepsTracks relay (f x)) : KeepsTracks relay (forM l f) :=
  fun _ _ h => WpState.forM trivial h fun x hx state' store' _ h' => hf x hx state' store' h'

/-- A program that only reads the store. -/
theorem reads {q : ExceptT ε (Prog storeInterface) α}
    (hq : ∀ store, Keeps relay.db.handle (· = store) q fun _ => True) :
    KeepsTracks relay (liftProg q : StatefulProg storeInterface GroupServiceState ε α) := by
  intro state store h
  have hsame := (hq store store rfl).1 _ (Prog.run_mem_states _ _)
  have hread : Wp relay.db.handle (fun _ => True) q store (fun _ store' => store' = store)
      fun _ store' => store' = store := by
    refine Wp.of_states (fun _ _ => trivial) ?_
    cases hresult : (exec relay.db.handle q store).1 with
    | ok a => exact hsame
    | error e => exact hsame
  exact WpState.liftProg (hread.mono (fun _ _ _ hstore => hstore ▸ h) fun _ _ _ hstore =>
    hstore ▸ h)

/-- Storing an event. -/
theorem storeEvent {wrap : String → ε} {event : PocketEvent} :
    KeepsTracks relay (liftProg (StoreM.storeEvent wrap event) :
      StatefulProg storeInterface GroupServiceState ε StoreOffset) :=
  fun _ _ h => WpState.liftProg ((wp_storeEvent trivial fun _ => trivial).mono
    (fun _ _ _ hstored => hstored.2.2 ▸ h.withEvents _) fun _ _ _ hstored => hstored.2 ▸ h)

end KeepsTracks

/-! ## Writes -/

/-- Saving a record keeps the tables on track, if the record was planned. -/
theorem tracks_saveRecord {record : GroupOutboxRecord}
    (hrecord : ∃ event, PlannedFor relay.pocket event record) :
    KeepsTracks relay (GroupServiceState.saveRecord record) :=
  fun _ _ h => WpState.modify_seq (WpState.liftProg (Wp.perform trivial trivial
    (fun _ _ => h.update hrecord) fun _ he => (nomatch he)))

/-- An event is taken and the rows of its group are written. -/
theorem tracks_take {α : Type} {event : PocketEvent} {offset : StoreOffset} {groupId : GroupId}
    {state : GroupServiceState} {store : PocketStore}
    {rest : ServiceM α} (h : Tracks relay state store) (hrest : KeepsTracks relay rest)
    (happly : applyItem limits state.projection ⟨event, offset⟩ = .ok projection)
    (hgroup : ∀ other, OfGroup limits other ⟨event, offset⟩ → other = groupId) :
    WpState relay.db.handle (fun _ => True) (do
      set { state with projection := projection }
      ServiceM.store (persistGroupProjection projection groupId)
      rest) state store (fun _ => Tracks relay) fun _ => Tracks relay := by
  refine WpState.set_seq (WpState.liftProg_seq (Y := fun _ _ => False) (R := fun _ written =>
    written = { store with projection := putRows store.projection (groupRows projection groupId) })
    (Wp.of_exec (exec_putProjectionRows _) rfl) (fun _ written _ hwritten => ?_)
    fun _ _ _ hX => hX.elim)
  subst hwritten
  exact hrest _ _ (h.takes happly hgroup)

/-- Storing a generated event keeps the tables on track. -/
theorem tracks_storeGeneratedEvent {record : GroupOutboxRecord}
    (hrecord : ∃ event, PlannedFor relay.pocket event record) :
    KeepsTracks relay (GroupServiceState.storeGeneratedEvent relay.pocket record) := by
  intro state store h
  refine WpState.get_seq ?_
  refine WpState.check_seq trivial (fun generated hgenerated => ?_) fun _ _ => h
  refine WpState.check_seq trivial (fun eventId _ => ?_) fun _ _ => h
  refine WpState.liftProg_seq
    (@GroupServiceState.wp_generatedEventAlreadyStored _ _ _ _ (fun _ _ => False) trivial)
    (fun present same _ ⟨hsame, _⟩ => ?_) fun _ _ _ hX => hX.elim
  subst hsame
  split
  · exact WpState.pure trivial h
  · refine WpState.liftProg_seq (wp_storeEvent trivial fun _ => trivial)
      (fun offset stored _ ⟨_, _, hstored⟩ => ?_) fun _ _ _ hrefused => hrefused.2 ▸ h
    subst hstored
    have hstored := h.withEvents (same.events ++ [⟨generated, offset⟩])
    refine WpState.check_seq trivial (fun result hresult => ?_) fun _ _ => hstored
    have htakes := applyItem_of_applyCanonicalEvent (Except.mapError_eq_ok.mp hresult)
    refine tracks_take hstored .pure htakes fun other hof => ?_
    obtain ⟨source, hplanned⟩ := hrecord
    obtain ⟨eventClass, hclass, hgroup⟩ := hof
    exact group_of_generatedRecord hplanned h.signer (Except.mapError_eq_ok.mp hgenerated) hclass
      hgroup

/-- Trying a record keeps the tables on track, whatever comes of it. -/
theorem tracks_materializeRecord {record : GroupOutboxRecord}
    (hrecord : ∃ event, PlannedFor relay.pocket event record) :
    KeepsTracks relay (GroupServiceState.materializeRecord relay.pocket record) := by
  have hsave : ∀ record' : GroupOutboxRecord, record'.key = record.key →
      record'.payload = record.payload →
        KeepsTracks relay (GroupServiceState.saveRecord record') := by
    intro record' hkey hpayload
    obtain ⟨event, hplanned⟩ := hrecord
    exact tracks_saveRecord ⟨event, hplanned.congr hkey hpayload⟩
  unfold GroupServiceState.materializeRecord
  split
  · exact (hsave (record.markSkipped _) rfl rfl).bind fun _ => .pure
  · intro state store h
    refine WpState.attempt_seq (tracks_storeGeneratedEvent hrecord state store h)
      (fun result state' store' _ h' => ?_) fun error state' store' _ h' => ?_
    · exact ((hsave (record.markStored _) rfl rfl).bind fun _ => .pure) state' store' h'
    · exact ((hsave (record.markFailed _ _) rfl rfl).bind fun _ => .throw) state' store' h'

/-- Trying records one after another keeps the tables on track. -/
theorem tracks_materializeRecords {records : List GroupOutboxRecord}
    (hrecords : ∀ record ∈ records, ∃ event, PlannedFor relay.pocket event record) :
    KeepsTracks relay (GroupServiceState.materializeRecords relay.pocket records) := by
  induction records with
  | nil => exact .pure
  | cons record rest ih =>
    have hrest := ih fun other hother => hrecords other (List.mem_cons_of_mem _ hother)
    exact (tracks_materializeRecord (hrecords record (List.mem_cons_self ..))).bind fun _ =>
      hrest.bind fun _ => .pure

/-- A replay materializes records of the outbox. -/
theorem tracks_materializeWith {keep : GroupOutboxRecord → Bool} :
    KeepsTracks relay (GroupServiceState.materializeWith relay.pocket fun outbox =>
      outbox.replayPlanMatching keep) := by
  have hloop : ∀ steps, KeepsTracks relay (GroupServiceState.materializeLoop relay.pocket
      (fun outbox => outbox.replayPlanMatching keep) steps) := by
    intro steps
    induction steps with
    | zero => exact .pure
    | succ steps ih =>
      intro state store h
      refine WpState.get_seq ?_
      dsimp only
      split
      · exact WpState.pure trivial h
      · refine ((tracks_materializeRecords fun record hrecord => ?_).bind fun _ =>
          ih.bind fun _ => .pure) state store h
        obtain ⟨⟨key, hget⟩, _⟩ :=
          GroupOutbox.mem_replayPlanMatching.mp (List.mem_of_mem_take hrecord)
        exact h.planned key record hget
  exact fun state store h => WpState.get_seq (hloop _ state store h)

/-- Merging a record keeps the tables on track. -/
theorem tracks_mergeRecord {record : GroupOutboxRecord}
    (hrecord : ∃ event, PlannedFor relay.pocket event record) :
    KeepsTracks relay (GroupServiceState.mergeRecord record) := by
  intro state store h
  refine WpState.get_seq (WpState.check_seq trivial (fun merged hmerge => ?_) fun _ _ => h)
  obtain ⟨inserted, outbox⟩ := merged
  rcases GroupOutbox.mergeIdempotent_cases (Except.mapError_eq_ok.mp hmerge) with
    ⟨rfl, rfl, _⟩ | ⟨rfl, rfl, _⟩
  · exact WpState.set_seq (WpState.pure trivial h)
  · exact WpState.set_seq (WpState.liftProg (Wp.perform trivial trivial
      (fun _ _ => h.update hrecord) fun _ he => (nomatch he)))

/-- Merging records keeps the tables on track. -/
theorem tracks_mergeRecords {records : List GroupOutboxRecord}
    (hrecords : ∀ record ∈ records, ∃ event, PlannedFor relay.pocket event record) :
    KeepsTracks relay (GroupServiceState.mergeRecords records) :=
  KeepsTracks.forM fun record hrecord => tracks_mergeRecord (hrecords record hrecord)

/-- What the event owes is planned on the projection, merged and replayed. -/
theorem tracks_generateRecords {event : PocketEvent} {eventClass : GroupEventClass}
    {before : Option Bool} (hclass : classifyGroupEvent event limits = .ok eventClass) :
    KeepsTracks relay
      (GroupServiceState.generateRecords relay.pocket event eventClass before) := by
  intro state store h
  refine WpState.get_seq (WpState.check_seq trivial (fun records hrecords => ?_) fun _ _ => h)
  have hplanned := plannedFor_of_plan h.named hclass (Except.mapError_eq_ok.mp hrecords)
  refine ((tracks_mergeRecords hplanned).bind fun _ => ?_) state store h
  unfold GroupServiceState.materializeClass
  cases eventClass with
  | nonGroup => exact .pure
  | _ => exact tracks_materializeWith

/-- What follows the storing of an event keeps the tables on track. -/
theorem tracks_afterSourceEventStored {event : PocketEvent} {eventClass : GroupEventClass}
    {offset : StoreOffset} {state : GroupServiceState} {store : PocketStore}
    (h : Tracks relay state store)
    (hclass : classifyGroupEvent event state.limits = .ok eventClass) :
    WpState relay.db.handle (fun _ => True)
      (GroupServiceState.afterSourceEventStored relay.pocket event eventClass offset) state store
      (fun _ => Tracks relay) fun _ => Tracks relay := by
  refine WpState.get_seq (WpState.check_seq trivial (fun before _ => ?_) fun _ _ => h)
  refine WpState.check_seq trivial (fun result hresult => ?_) fun _ _ => h
  have htakes := applyItem_of_applyCanonicalEvent (Except.mapError_eq_ok.mp hresult)
  have hgroups : ∀ other, OfGroup state.limits other ⟨event, offset⟩ →
      eventClass.groupId = some other := by
    intro other ⟨found, hfound, hgroup⟩
    cases hfound.symm.trans hclass
    exact hgroup
  cases eventClass with
  | nonGroup =>
    -- an event of no group changes no entry
    refine WpState.set_seq (@tracks_generateRecords relay _ event _ before hclass _ _ ⟨?_,
      h.records,
      h.named.applyItem htakes, h.planned, h.signer⟩)
    refine h.rows.congr fun key => ?_
    rcases entry_applyItem htakes key with ⟨hsame, _⟩ | ⟨_, other, _, _, hof⟩
    · exact hsame.symm
    · cases hgroups other hof
  | _ =>
    refine tracks_take h (tracks_generateRecords hclass) htakes fun other hof => ?_
    exact (Option.some.inj (hgroups other hof)).symm

/-- Whether it ends well or not, a write leaves the tables as the memory is. -/
theorem tracks_storeGroupPocketEvent {event : PocketEvent} {eventClass : GroupEventClass}
    {auth : GroupAuthContext} {state : GroupServiceState} {store : PocketStore}
    (h : Tracks relay state store)
    (hclass : classifyGroupEvent event state.limits = .ok eventClass) :
    WpState relay.db.handle (fun _ => True)
      (GroupServiceState.storeGroupPocketEvent relay.pocket event eventClass auth) state store
      (fun _ => Tracks relay) fun _ => Tracks relay := by
  refine WpState.get_seq (WpState.liftProg_seq (Y := fun _ store' => store' = store)
    (Wp.adapt (GroupServiceState.wp_checkEvent trivial)) (fun _ checked _ ⟨hchecked, _⟩ => ?_)
    fun _ _ _ hstore => hstore ▸ h)
  subst hchecked
  refine WpState.liftProg_seq (Y := fun _ _ => False) (R := fun _ found => found = checked)
    (Wp.perform trivial trivial (fun _ _ => rfl) fun _ he => (nomatch he))
    (fun present found _ hfound => ?_) fun _ _ _ hX => hX.elim
  subst hfound
  split
  · exact WpState.pure trivial h
  · refine WpState.liftProg_seq (wp_storeEvent trivial fun _ => trivial)
      (fun offset stored _ ⟨_, _, hstored⟩ => ?_) fun _ _ _ hrefused => hrefused.2 ▸ h
    subst hstored
    have hstored := h.withEvents (found.events ++ [⟨event, offset⟩])
    refine WpState.seq (WpState.adapt (tracks_afterSourceEventStored hstored hclass))
      (fun offsets state' store' _ h' => ?_) fun _ _ _ _ h' => h'
    exact WpState.pure trivial h'

/-- The relay's step on an event leaves the tables as the memory is. -/
theorem tracks_submit {event : PocketEvent} {auth : GroupAuthContext}
    (h : Tracks relay state store) :
    WpState relay.db.handle (fun _ => True) (relay.submit event auth) (some state) store
      (fun _ groups store' => ∃ state', groups = some state' ∧ Tracks relay state' store')
      fun _ groups store' => ∃ state', groups = some state' ∧ Tracks relay state' store' := by
  unfold Relay.submit handlePocketEvent
  split
  · exact WpState.pure trivial ⟨state, rfl, h⟩
  refine WpState.get_seq ?_
  split
  · exact WpState.pure trivial ⟨state, rfl, h⟩
  · refine WpState.liftProg ((wp_storePlainEvent trivial fun _ _ => trivial).mono
      (fun _ store' _ hstored => ⟨state, rfl, ?_⟩) fun _ _ _ hstore => ⟨state, rfl, hstore ▸ h⟩)
    rcases hstored with hstore | ⟨_, _, hstore⟩
    · exact hstore ▸ h
    · exact hstore ▸ h.withEvents _
  · next eventClass _ hgate =>
    have hclass : classifyGroupEvent event state.limits = .ok eventClass := (class_of_gate hgate).1
    refine WpState.get_seq (WpState.seq (wp_withGroups (Y := fun _ _ _ => False)
      (tracks_storeGroupPocketEvent h hclass))
      (fun result groups store' _ ⟨state', hgroups, hend⟩ => ?_) fun _ _ _ _ hX => hX.elim)
    subst hgroups
    rcases result with (error | error) | (offsets | _)
    · exact WpState.pure trivial ⟨state', rfl, hend⟩
    · exact WpState.throw trivial ⟨state', rfl, hend⟩
    · exact WpState.pure trivial ⟨state', rfl, hend⟩
    · exact WpState.pure trivial ⟨state', rfl, hend⟩

/-! ## Starts -/

/-- A snapshot leaves the rows of its projection. -/
theorem holdsRows_snapshot (checkpoint : ProjectionCheckpoint) :
    HoldsRows (projection.setCheckpoint checkpoint).row
      (store.snapshot projection checkpoint).projection :=
  HoldsRows.snapshot

/-- What a start loads is what the tables hold when it has loaded. -/
theorem wp_loadTables {now : UnixTimestamp} (h : store.Readable relay) :
    Wp relay.db.handle (fun _ => True) (loadGroupStorage limits now) store
      (fun storage store' => HoldsRows storage.projection.row store'.projection ∧
        HoldsRecords storage.outbox store'.outbox) fun _ _ => True := by
  obtain ⟨outbox, hrecords, _⟩ := h.records
  obtain ⟨held, hheld, hrows⟩ := h.rows
  refine Wp.seq wp_validateGroupCheckpoint (fun status checked _ ⟨hstore, _⟩ => ?_)
    fun _ _ _ _ => trivial
  subst hstore
  refine Wp.seq (wp_scanExtraRecords (X := fun _ _ => False) .outbox)
    (fun outboxRecords scanned _ ⟨hstore, houtbox⟩ => ?_) fun _ _ _ hX => hX.elim
  subst hstore houtbox
  -- the outbox is read at the end of both branches
  let rest (projection : GroupProjection) : BaseM GroupStorageState := do
    return ⟨projection, ← liftM (loadGroupOutbox scanned.outbox.toList)⟩
  have hload : ∀ (projection : GroupProjection) (store' : PocketStore),
      HoldsRows projection.row store'.projection → store'.outbox = scanned.outbox →
      Wp relay.db.handle (fun _ => True) (rest projection) store'
        (fun storage store' => HoldsRows storage.projection.row store'.projection ∧
          HoldsRecords storage.outbox store'.outbox) fun _ _ => True := by
    intro projection store' hprojection houtbox
    refine Wp.check_seq trivial (fun loaded hloaded => ?_) fun _ _ => trivial
    cases load_of_holdsRecords hrecords hloaded
    exact Wp.pure trivial ⟨hprojection, houtbox ▸ hrecords⟩
  split
  · refine Wp.seq (wp_scanCanonicalGroupEventsAfter trivial)
      (fun scan rescanned _ ⟨hstore, _⟩ => ?_) fun _ _ _ _ => trivial
    subst hstore
    refine Wp.check_seq trivial (fun report hreport => ?_) fun _ _ => trivial
    have hrebuild := @rebuildGroupProjection_projection scan.events limits now
    rw [Except.mapError_eq_ok.mp hreport, Except.functor_map_ok] at hrebuild
    obtain ⟨built, _, hprojection⟩ := Except.map_eq_ok.mp hrebuild.symm
    rw [← hprojection]
    exact wp_persistSnapshot (hload _ _ (holdsRows_snapshot _) rfl) fun _ => trivial
  · refine Wp.seq (wp_scanExtraRecords (X := fun _ _ => False) .projection)
      (fun rows rescanned _ ⟨hstore, hprojection⟩ => ?_) fun _ _ _ hX => hX.elim
    subst hstore hprojection
    refine Wp.check_seq trivial (fun loaded hloaded => ?_) fun _ _ => trivial
    cases load_of_holdsRows hheld.named hrows hloaded
    have hloadedRows : ∀ checkpoint, HoldsRows
        ({ held with checkpoint := checkpoint } : GroupProjection).row rescanned.projection :=
      fun checkpoint => hrows.congr fun key =>
        (congrFun (GroupProjection.row_withCheckpoint checkpoint) key).symm
    refine Wp.seq (R := fun projection store' => HoldsRows projection.row store'.projection ∧
      store'.outbox = rescanned.outbox) (Y := fun _ _ => True) ?_
      (fun projection store' _ ⟨hprojection, houtbox⟩ =>
        hload projection store' hprojection houtbox)
      fun _ _ _ _ => trivial
    refine Wp.seq (wp_scanCanonicalGroupEventsAfter trivial)
      (fun scan again _ ⟨hstore, _⟩ => ?_) fun _ _ _ _ => trivial
    subst hstore
    dsimp only
    split
    · exact Wp.pure trivial ⟨hloadedRows _, rfl⟩
    · refine Wp.check_seq trivial (fun applied _ => ?_) fun _ _ => trivial
      exact wp_persistSnapshot (Wp.pure trivial ⟨holdsRows_snapshot _, rfl⟩) fun _ => trivial

/-- Replaying one event and merging what it owes. -/
theorem tracks_deriveRecordsOf {projection : GroupProjection} (hnamed : projection.Named)
    {state : GroupServiceState} {store : PocketStore} (h : Tracks relay state store) :
    WpState relay.db.handle (fun _ => True)
      (GroupServiceState.deriveRecordsOf relay.pocket projection item) state store
      (fun projection' state' store' => projection'.Named ∧ Tracks relay state' store')
      fun _ => Tracks relay := by
  refine WpState.get_seq (WpState.check_seq trivial (fun eventClass hclass => ?_) fun _ _ => h)
  refine WpState.check_seq trivial (fun before _ => ?_) fun _ _ => h
  refine WpState.check_seq trivial (fun result hresult => ?_) fun _ _ => h
  have hnext : result.2.Named :=
    hnamed.applyItem (applyItem_of_applyCanonicalEvent (Except.mapError_eq_ok.mp hresult))
  dsimp only
  split
  · exact WpState.pure trivial ⟨hnext, h⟩
  · refine WpState.check_seq trivial (fun records hrecords => ?_) fun _ _ => h
    have hplanned := plannedFor_of_plan hnext (Except.mapError_eq_ok.mp hclass)
      (Except.mapError_eq_ok.mp hrecords)
    refine WpState.seq (tracks_mergeRecords hplanned _ _ h) (fun _ state' store' _ h' => ?_)
      fun _ _ _ _ h' => h'
    exact WpState.pure trivial ⟨hnext, h'⟩

/-- The end of a start keeps the tables on track. -/
theorem tracks_finishStart :
    KeepsTracks relay (GroupServiceState.finishStart relay.pocket) := by
  have hmissing : KeepsTracks relay
      (GroupServiceState.deriveMissingOutboxRecords relay.pocket) := by
    intro state store h
    refine WpState.get_seq (WpState.liftProg_seq (wp_scanCanonicalGroupEventsAfter trivial)
      (fun scan scanned _ ⟨hstore, _⟩ => ?_) fun _ _ _ hstore => hstore ▸ h)
    subst hstore
    refine WpState.seq (WpState.foldlM (P := fun projection state store =>
      projection.Named ∧ Tracks relay state store) trivial ⟨.new, h⟩
      fun projection item _ state' store' _ ⟨hnamed, h'⟩ => tracks_deriveRecordsOf hnamed h')
      (fun _ state' store' _ ⟨_, h'⟩ => WpState.pure trivial h') fun _ _ _ _ h' => h'
  exact hmissing.bind fun _ => tracks_materializeWith.bind fun _ => .pure

/-- **A start makes the tables and the memory agree**, whatever an earlier one has left. -/
theorem wp_start_tracks {config : GroupRuntimeConfig} {now : UnixTimestamp}
    (h : store.Readable relay) :
    Wp relay.db.handle (fun _ => True) (relay.start config now) store
      (fun groups store' => ∀ state, groups = some state → Tracks relay state store')
      fun _ _ => True := by
  unfold Relay.start GroupServiceState.fromConfig
  split
  · exact Wp.pure trivial fun _ h => (nomatch h)
  refine Wp.check_seq trivial (fun signer hsigner => ?_) fun _ _ => trivial
  refine Wp.seq ((wp_loadTables h).and_keeps
    (Upkeep.keeps_loadGroupStorage (readableUpkeep_starts relay config.limits)) h)
    (fun storage loaded _ ⟨⟨hrows, hrecords⟩, hreadable, hplanned⟩ => ?_) fun _ _ _ _ => trivial
  have htracks : Tracks relay (GroupServiceState.ofStorage config signer storage) loaded :=
    ⟨hrows, hrecords, GroupProjection.Readable.named hreadable,
      fun key record hget => (hplanned key record hget).planned,
      Upkeep.publicKey_of_configuredSigner hsigner⟩
  refine Wp.seq (GroupServiceState.wp_runFrom (tracks_finishStart _ _ htracks))
    (fun state store' _ h' => ?_) fun _ _ _ _ => trivial
  refine Wp.pure trivial fun started hstarted => ?_
  cases hstarted
  exact h'

/-! ## Runs -/

/-- Every event that is submitted is of a group with a short id, or of none. -/
def ShortGroupIds : World → Happening → Prop
  | _, .submitted event _ _ | _, .submitStopped event _ => event.ShortGroupId
  | _, _ => True

/-- The rows are read back, and a running service has them in memory. -/
def World.Tracks (relay : Relay) : World → Prop
  | .up groups store => store.Readable relay ∧
      ∀ state, groups = some state → Tangle.Tracks relay state store ∧
        (readableUpkeep relay).Holds relay state.limits state
  | .down store => store.Readable relay

/-- What a step on an event leads to, and what it passes through. -/
theorem wp_submit_tracks {groups : Option GroupServiceState} {event : PocketEvent}
    (auth : GroupAuthContext) (hevent : event.ShortGroupId)
    (h : World.Tracks relay (.up groups store)) :
    WpState relay.db.handle (PocketStore.Readable relay) (relay.submit event auth) groups store
      (fun _ groups' store' => World.Tracks relay (.up groups' store'))
      fun _ groups' store' => World.Tracks relay (.up groups' store') := by
  cases groups with
  | none =>
    refine (wp_submit_off h.1 fun _ hfind hrefuses =>
      (readableUpkeep_starts relay .default).storeEvent h.1 hevent
        fun hdb => hdb.fresh hfind hrefuses).mono ?_ ?_
    · exact fun _ _ _ _ ⟨hgroups, hstore⟩ => ⟨hstore, fun _ h => by cases hgroups; cases h⟩
    · exact fun _ _ _ _ ⟨hgroups, hstore⟩ => ⟨hstore, fun _ h => by cases hgroups; cases h⟩
  | some state =>
    obtain ⟨htracks, hholds⟩ := h.2 state rfl
    have hkept := @Upkeep.wp_submit _ relay state.limits _ state
      (readableUpkeep_starts relay state.limits).toWrites store event auth hholds h.1
      (fun _ => hevent) (fun _ _ _ _ => trivial) fun _ _ _ => hevent
    have hend : ∀ groups' store', store'.Readable relay →
        ((∃ state', groups' = some state' ∧
          (readableUpkeep relay).Holds relay state.limits state') ∧
        ∃ state', groups' = some state' ∧ Tracks relay state' store') →
        World.Tracks relay (.up groups' store') := by
      intro groups' store' hstore' ⟨⟨state', hgroups, hholds'⟩, found, hfound, htracks'⟩
      cases hgroups.symm.trans hfound
      subst hgroups
      refine ⟨hstore', fun running hrunning => ?_⟩
      cases hrunning
      exact ⟨htracks', hholds'.limits ▸ hholds'⟩
    exact (hkept.and (tracks_submit htracks)).mono
      (fun _ groups' store' hstore' => hend groups' store' hstore')
      fun _ groups' store' hstore' => hend groups' store' hstore'

/-- **Wherever a relay has got to, its tables are its memory.** -/
theorem Relay.Reaches.tracks {w : World} (hw : relay.Reaches ShortGroupIds w) : w.Tracks relay := by
  refine hw.invariant PocketStore.Readable.empty fun {w happening w'} h hallowed hstep => ?_
  cases hstep with
  | @started config now store store' groups hrun =>
    obtain ⟨hstates, hresult⟩ := @Upkeep.keeps_start _ relay config now
      (readableUpkeep_starts relay config.limits) store h
    have hend := hstates _ (Prog.run_mem_states _ _)
    have htracks := (wp_start_tracks h).exec hrun
    unfold exec at hrun
    rw [hrun] at hend hresult
    refine ⟨hend, fun state hstate => ⟨htracks state hstate, ?_⟩⟩
    have hholds := (hresult _ rfl state hstate).1
    exact hholds.limits ▸ hholds
  | @startStopped config now store store' hmem =>
    exact (Upkeep.keeps_start (readableUpkeep_starts relay config.limits) store h).1 store' hmem
  | @submitted event auth groups store result groups' store' _ hrun =>
    have hend := (wp_submit_tracks auth hallowed h).exec hrun
    cases result with
    | ok write => exact hend
    | error error => exact hend
  | submitStopped _ hmem => exact (wp_submit_tracks _ hallowed h).1 _ hmem
  | stopped => exact h.1

/-- **The stored projection and the stored outbox are those in memory.** Wherever a relay has got to
through starts, writes, failures and stops, as long as every submitted event is of a group whose id
is short enough to be read: loading the projection table gives the projection of the running
service, up to the checkpoint it is loaded with, and loading the outbox table gives its outbox. The
rows are those of the entries and of the records in memory, none missing and none stale, and records
of different keys have different rows. -/
theorem tables_hold_memory (hreach : relay.Reaches ShortGroupIds (.up (some state) store)) :
    (∀ checkpoint, loadGroupProjection store.projection.toList checkpoint =
      .ok { state.projection with checkpoint := checkpoint }) ∧
    loadGroupOutbox store.outbox.toList = .ok state.outbox ∧
    (∀ text value, store.projection[text]? = some value ↔
      ∃ key : ProjectionKey, key.text = text ∧ state.projection.row key = some value) ∧
    (∀ text value, store.outbox[text]? = some value ↔
      ∃ record, state.outbox.get record.key = some record ∧
      record.key.storageKey = text ∧ record.toJsonBytes = value) ∧
    Function.Injective GroupOutboxKey.storageKey := by
  obtain ⟨_, hup⟩ := hreach.tracks
  obtain ⟨htracks, hholds⟩ := hup state rfl
  have hreadable : state.projection.Readable := hholds.projection
  refine ⟨fun checkpoint => loads_of_shortIds htracks.named htracks.rows hreadable.shortIds,
    loads_of_holdsRecords htracks.records fun key record hget =>
      (hholds.records key record hget).short,
    fun text value => ⟨fun hrow => ?_, fun ⟨key, hkey, hrow⟩ => ?_⟩,
    fun text value => ⟨fun hrow => ?_, fun ⟨record, hget, hkey, hvalue⟩ => ?_⟩,
    GroupOutboxKey.storageKey_injective⟩
  · obtain ⟨key, hkey⟩ := htracks.rows.named text value hrow
    exact ⟨key, hkey, (htracks.rows.lookup key).symm.trans (hkey ▸ hrow)⟩
  · rw [← hkey, htracks.rows.lookup, hrow]
  · obtain ⟨record, hget, heq⟩ := htracks.records.mem_toList (BTreeMap.mem_toList.mpr hrow)
    cases heq
    exact ⟨record, hget, rfl, rfl⟩
  · rw [← hkey, htracks.records.lookup, hget, ← hvalue]
    rfl

end

/-! ## A stopped write and a restart -/

namespace Sample

instance (w : World) (happening : Happening) : Decidable (ShortGroupIds w happening) := by
  unfold ShortGroupIds
  cases happening with
  | submitted event _ _ => exact inferInstanceAs (Decidable event.ShortGroupId)
  | submitStopped event _ => exact inferInstanceAs (Decidable event.ShortGroupId)
  | _ => exact .isTrue trivial

/-- The group is made, a join is stopped after the event and some rows are stored, and the relay is
started again, where another member is put. -/
def joinStopped : List ScriptLine :=
  [.start config 100, .submit (farmEvent owner 9007 10 []) (authAs owner),
    .submitUntil (farmEvent member 9021 20 []) (authAs member) 4, .start config 200,
    .submit (farmEvent owner 9000 30 [["p", owner.text.toMessage]]) (authAs owner)]

end Sample

section
open Sample

/-- A relay is stopped within a join and started again: the tables hold the group, its members and
its records as the memory does. -/
theorem tables_hold_memory_joinStopped : ∃ state store,
    relay.Reaches ShortGroupIds (.up (some state) store) ∧
      (state.projection.group farm).isSome = true ∧
      (state.projection.member farm member).isSome = true ∧
      (state.projection.member farm owner).isSome = true ∧ state.outbox.records.size = 4 ∧
      loadGroupProjection store.projection.toList none =
        .ok { state.projection with checkpoint := none } ∧
      loadGroupOutbox store.outbox.toList = .ok state.outbox := by
  have hscript : relay.ScriptEnds (fun w happening => decide (ShortGroupIds w happening))
      joinStopped fun state _ => (state.projection.group farm).isSome = true ∧
        (state.projection.member farm member).isSome = true ∧
        (state.projection.member farm owner).isSome = true ∧ state.outbox.records.size = 4 := by
    decide +kernel
  obtain ⟨state, store, hreach, hgroup, hmember, howner, hsize⟩ := hscript.reaches
  have hreach := hreach.mono fun _ _ hallowed => of_decide_eq_true hallowed
  have htables := tables_hold_memory hreach
  exact ⟨state, store, hreach, hgroup, hmember, howner, hsize, htables.1 none, htables.2.1⟩

end

end Tangle
