import Tangle.Runtime.Writing

/-!
# What a start leads to

A start loads what the store holds: the projection has seen every stored event, whether it is
rebuilt or read from the rows and brought up to date, and the outbox is the one whose rows the store
holds (`wp_loadGroupStorage`). It then derives the records that stored events owe and replays the
outbox. Once it succeeds, no record is left to try again (`wp_start`). A start that fails leaves a
sound store, and so does one that is stopped after it has loaded; one that is stopped while it
writes the projection may not.
-/

namespace Tangle

open GroupEventView

variable {relay : Relay} {sources : Sources} {must : StoredEvent → Prop}
  {state state' : GroupServiceState} {store store' : PocketStore} {limits : GroupLimitsConfig}
  {now : UnixTimestamp} {projection : GroupProjection} {lastOffset : Option StoreOffset}

/-! ## Checkpoints -/

/-- The events lie up to the last of their offsets. -/
theorem upTo_max {items : List StoredEvent} {item : StoredEvent} (hitem : item ∈ items) :
    UpTo (items.map StoredEvent.storeOffset).max? item := by
  have hmem : item.storeOffset ∈ items.map StoredEvent.storeOffset := List.mem_map_of_mem hitem
  obtain ⟨last, hlast⟩ := Option.isSome_iff_exists.mp (List.isSome_max?_of_mem hmem)
  exact ⟨last, hlast, (List.max?_le_iff hlast).mp le_rfl _ hmem⟩

/-- The largest offset is an event's. -/
theorem mem_max {items : List StoredEvent} {offset : StoreOffset}
    (h : (items.map StoredEvent.storeOffset).max? = some offset) :
    ∃ item ∈ items, item.storeOffset = offset := by
  obtain ⟨item, hitem, heq⟩ := List.mem_map.mp (List.max?_mem h)
  exact ⟨item, hitem, heq⟩

namespace PocketStore

/-- The store with the snapshot of a projection and its checkpoint. -/
def snapshot (store : PocketStore) (projection : GroupProjection)
    (checkpoint : ProjectionCheckpoint) : PocketStore :=
  { store with
    projection := putRows ∅ (snapshotRows (projection.setCheckpoint checkpoint))
    checkpoint := store.checkpoint.insert projectionCheckpointKey checkpoint.toJsonBytes }

/-- A snapshot just written has a current checkpoint. -/
theorem checkpointStatus_snapshot :
    (store.snapshot projection (.current lastOffset now)).checkpointStatus =
      .ok (.current (.current lastOffset now)) := by
  unfold checkpointStatus snapshot
  rw [BTreeMap.getElem?_insert_self, GroupCheckpointStatus.ofRow,
    ProjectionCheckpoint.fromJsonBytes_toJsonBytes]
  rfl

/-- The checkpoint of a snapshot reaches the events up to it. -/
theorem checkpointCovers_snapshot {item : StoredEvent} :
    (store.snapshot projection (.current lastOffset now)).CheckpointCovers item ↔
      UpTo lastOffset item := by
  unfold CheckpointCovers
  rw [checkpointStatus_snapshot]
  refine ⟨fun ⟨checkpoint, hcurrent, hupTo⟩ => ?_, fun hupTo => ⟨_, rfl, hupTo⟩⟩
  cases hcurrent
  exact hupTo

/-- The snapshot of a projection that has seen every event, with a checkpoint behind every
create. -/
theorem Sound.snapshot (h : store.Sound relay sources)
    (hreflects : ProjectionReflects .widest (· ∈ store.events) projection)
    (hlast : ∀ offset, lastOffset = some offset → ∃ item ∈ store.events, item.storeOffset = offset)
    (hcreators : ∀ groupId, ∀ creator ∈ store.events, CreatesGroup .widest groupId creator →
      UpTo lastOffset creator) :
    (store.snapshot projection (.current lastOffset now)).Sound relay sources where
  arrived := h.arrived
  ids := h.ids
  origin := h.origin
  rows := ⟨projection.setCheckpoint (.current lastOffset now), HoldsRows.snapshot,
    (hreflects.withCheckpoint _).mono (fun _ hitem => hitem.1) fun _ hitem => hitem⟩
  checkpoint checkpoint offset hcurrent hoffset := by
    rw [checkpointStatus_snapshot] at hcurrent
    cases hcurrent
    exact hlast offset hoffset
  created groupId creator hcreator hcreates hnot :=
    absurd (checkpointCovers_snapshot.mpr (hcreators groupId creator hcreator hcreates)) hnot
  records := h.records

end PocketStore

/-! ## Loading -/

/-- What a start has loaded from a store. -/
structure LoadedFrom (relay : Relay) (sources : Sources) (store : PocketStore)
    (storage : GroupStorageState) (store' : PocketStore) : Prop where
  projection : ProjectionReflects .widest (· ∈ store.events) storage.projection
  events : store'.events = store.events
  outbox : HoldsRecords storage.outbox store'.outbox
  records : storage.outbox.RecordsSound relay sources store.events

/-- A scan leaves the store and finds the events of groups behind the offset. -/
theorem wp_scanCanonicalGroupEventsAfter {C : PocketStore → Prop} (hC : C store) :
    Wp relay.db.handle C (scanCanonicalGroupEventsAfter lastOffset limits) store
      (fun scan store' => store' = store ∧ ∀ item, item ∈ scan.events ↔
        (item ∈ store.events ∧ ¬UpTo lastOffset item) ∧
          classifyGroupEvent item.event limits ≠ .ok .nonGroup)
      fun _ store' => store' = store := by
  refine Wp.seq (R := fun stored store' => store' = store ∧
    PocketDb.scanAfter store.events lastOffset = .ok stored) (Y := fun _ store' => store' = store)
    (Wp.perform hC hC (fun stored hread => ?_) fun _ _ => rfl)
    (fun stored _ _ ⟨hstore, hstored⟩ => ?_) fun _ _ _ hX => hX
  · exact ⟨rfl, Except.mapError_eq_ok.mp hread⟩
  · subst hstore
    refine Wp.liftExcept hC (fun scan hscan => ⟨rfl, fun item => ?_⟩) fun _ _ => rfl
    rw [(scanClassified_eq_ok (Except.mapError_eq_ok.mp hscan)).2, mem_of_scanAfter hstored]

/-- Reading the checkpoint changes nothing. -/
theorem wp_validateGroupCheckpoint :
    Wp relay.db.handle (fun _ => True) validateGroupCheckpoint store
    (fun status store' => store' = store ∧ store.checkpointStatus = .ok status)
    fun _ store' => store' = store := by
  refine Wp.of_exec exec_validateGroupCheckpoint ?_
  cases hread : store.checkpointStatus with
  | ok status => exact ⟨rfl, rfl⟩
  | error e => exact rfl

/-- Reading the rows of a table changes nothing. -/
theorem wp_scanExtraRecords {X : BaseRelayError → PocketStore → Prop} (table : GroupTable) :
    Wp relay.db.handle (fun _ => True) (StoreM.scanExtraRecords BaseRelayError.error table) store
      (fun rows store' => store' = store ∧ rows = (store.rows table).toList) X :=
  Wp.perform trivial trivial (fun _ hread => ⟨rfl, (Except.ok.inj hread).symm⟩)
    fun _ he => (nomatch he)

/-- A scanned event or one that is passed over. -/
theorem scanned_or_passedOver {scan : CanonicalGroupEventScan}
    (hscan : ∀ item, item ∈ scan.events ↔ (item ∈ store.events ∧ ¬UpTo lastOffset item) ∧
      classifyGroupEvent item.event limits ≠ .ok .nonGroup) :
    ∀ item ∈ store.events, ¬UpTo lastOffset item → item ∈ scan.events ∨
      PassedOver .widest item := by
  intro item hitem hafter
  by_cases hclass : classifyGroupEvent item.event limits = .ok .nonGroup
  · exact .inr (passedOver_of_nonGroup hclass)
  · exact .inl ((hscan item).mpr ⟨⟨hitem, hafter⟩, hclass⟩)

/-- Writing a snapshot and checking it. -/
theorem wp_persistSnapshot {α : Type} {checkpoint : ProjectionCheckpoint} {rest : BaseM α}
    {Q : α → PocketStore → Prop} {X : BaseRelayError → PocketStore → Prop}
    (hrest : Wp relay.db.handle (fun _ => True) rest (store.snapshot projection checkpoint) Q X)
    (hX : ∀ e, X e (store.snapshot projection checkpoint)) :
    Wp relay.db.handle (fun _ => True) (do
      persistGroupProjectionSnapshot (projection.setCheckpoint checkpoint)
      validateRebuiltGroupProjection
      rest) store Q X := by
  refine Wp.seq (R := fun _ store' => store' = store.snapshot projection checkpoint)
    (Y := fun _ _ => False) (Wp.of_exec (exec_persistSnapshot rfl) rfl)
    (fun _ written _ hwritten => ?_) fun _ _ _ hX => hX.elim
  subst hwritten
  have hvalidate : Wp relay.db.handle (fun _ => True) validateRebuiltGroupProjection
      (store.snapshot projection checkpoint)
      (fun _ store' => store' = store.snapshot projection checkpoint)
      fun _ store' => store' = store.snapshot projection checkpoint := by
    cases hrun : exec relay.db.handle validateRebuiltGroupProjection
      (store.snapshot projection checkpoint) with
    | mk result store' =>
      have hstore := exec_validateRebuilt_store hrun
      refine Wp.of_exec hrun ?_
      cases result with
      | ok done => exact hstore
      | error e => exact hstore
  refine Wp.seq hvalidate (fun _ checked _ hchecked => ?_) fun e failed _ hfailed => ?_
  · exact hchecked ▸ hrest
  · exact hfailed ▸ hX e

/-- The events after the checkpoint, taken again. -/
theorem wp_applyCanonicalEventsAfterCheckpoint (h : store.Sound relay sources)
    {checkpoint : ProjectionCheckpoint}
    (hcurrent : store.checkpointStatus = .ok (.current checkpoint))
    (hcovers : ProjectionCovers .widest (fun item => item ∈ store.events ∧
      store.CheckpointCovers item)
      (· ∈ store.events) projection) :
    Wp relay.db.handle (fun _ => True)
      (applyCanonicalEventsAfterCheckpoint (projection.setCheckpoint checkpoint) limits now) store
      (fun projection' store' => ProjectionReflects .widest (· ∈ store.events) projection' ∧
        store'.Sound relay sources ∧ store'.events = store.events ∧ store'.outbox = store.outbox)
      fun _ store' => store'.Sound relay sources := by
  have hupTo : ∀ item, store.CheckpointCovers item ↔ UpTo checkpoint.lastOffset item := by
    intro item
    refine ⟨fun ⟨found, hfound, hupTo⟩ => ?_, fun hupTo => ⟨checkpoint, hcurrent, hupTo⟩⟩
    cases hcurrent.symm.trans hfound
    exact hupTo
  simp only [hupTo] at hcovers
  have hcreated := h.created
  simp only [hupTo] at hcreated
  refine Wp.seq (wp_scanCanonicalGroupEventsAfter trivial)
    (fun scan scanned _ ⟨hstore, hscan⟩ => ?_) fun _ _ _ hstore => hstore ▸ h
  subst hstore
  have hall := scanned_or_passedOver hscan
  have hreload := fun {projection'} => @ProjectionCovers.reload .widest
    (projection.setCheckpoint checkpoint) projection' scan.events scanned.events h.arrived
    checkpoint.lastOffset hcreated (hcovers.withCheckpoint _)
    (fun item hitem => ((hscan item).mp hitem).1) hall
  dsimp only
  split
  · next hempty =>
    refine Wp.pure trivial ⟨hreload ?_, h, rfl, rfl⟩
    rw [List.isEmpty_iff.mp hempty]
    rfl
  · next hnonempty =>
    refine Wp.check_seq trivial (fun applied happlied => ?_) fun _ _ => h
    have hreflects := hreload (applyItems_widest (Except.mapError_eq_ok.mp happlied))
    have hsound := @PocketStore.Sound.snapshot relay sources scanned now applied
      (scan.events.map StoredEvent.storeOffset).max? h hreflects (fun offset hoffset => ?_)
      fun groupId creator hcreator hcreates => ?_
    · exact wp_persistSnapshot (Wp.pure trivial ⟨hreflects.withCheckpoint _, hsound, rfl, rfl⟩)
        fun _ => hsound
    · obtain ⟨item, hitem, heq⟩ := mem_max hoffset
      exact ⟨item, ((hscan item).mp hitem).1.1, heq⟩
    · by_cases hafter : UpTo checkpoint.lastOffset creator
      · -- what lies up to the old checkpoint lies up to the new one
        obtain ⟨first, hfirst⟩ := List.exists_mem_of_ne_nil _ fun hnil =>
          hnonempty (List.isEmpty_iff.mpr hnil)
        refine (upTo_max hfirst).of_le (le_of_not_gt fun hlt => ?_)
        exact ((hscan first).mp hfirst).1.2 (hafter.of_le (le_of_lt hlt))
      · refine upTo_max ((hall creator hcreator hafter).resolve_right fun hpassed => ?_)
        exact hpassed.not_makes hcreates.makes

/-- A rebuild from all events. -/
theorem wp_rebuild (h : store.Sound relay sources) {α : Type} (rest : GroupProjection → BaseM α)
    {Q : α → PocketStore → Prop}
    (hrest : ∀ projection store', ProjectionReflects .widest (· ∈ store.events) projection →
      store'.Sound relay sources → store'.events = store.events → store'.outbox = store.outbox →
      Wp relay.db.handle (fun _ => True) (rest projection) store' Q
        fun _ store' => store'.Sound relay sources) :
    Wp relay.db.handle (fun _ => True) (do
      let scan ← scanCanonicalGroupEvents limits
      let report ← liftGroup (rebuildGroupProjection scan.events limits now)
      persistGroupProjectionSnapshot report.projection
      validateRebuiltGroupProjection
      rest report.projection) store Q fun _ store' => store'.Sound relay sources := by
  refine Wp.seq (wp_scanCanonicalGroupEventsAfter trivial)
    (fun scan scanned _ ⟨hstore, hscan⟩ => ?_) fun _ _ _ hstore => hstore ▸ h
  subst hstore
  have hall := scanned_or_passedOver hscan
  have hnone : ∀ item, ¬UpTo none item := fun _ ⟨_, hnone, _⟩ => (nomatch hnone)
  refine Wp.check_seq trivial (fun report hreport => ?_) fun _ _ => h
  have hrebuild := @rebuildGroupProjection_projection scan.events limits now
  rw [Except.mapError_eq_ok.mp hreport, Except.functor_map_ok] at hrebuild
  obtain ⟨built, hbuilt, hprojection⟩ := Except.map_eq_ok.mp hrebuild.symm
  have hreflects : ProjectionReflects .widest (· ∈ scanned.events) built := by
    have hscanned := (ProjectionReflects.of_rebuild (applyItems_widest hbuilt)).mono
      (fun _ hitem => hitem) fun item hitem =>
        (((hscan item).mp hitem).1.1 : item ∈ scanned.events)
    exact hscanned.passOver (fun item hitem => hall item hitem (hnone item)) fun _ hitem => hitem
  have hmem : ∀ item, item ∈ sortByTuple scan.events ↔ item ∈ scan.events :=
    fun item => List.mem_insertionSort _
  rw [← hprojection]
  have hsound := @PocketStore.Sound.snapshot relay sources scanned now built
    ((sortByTuple scan.events).map StoredEvent.storeOffset).max? h hreflects
      (fun offset hoffset => ?_)
    fun groupId creator hcreator hcreates => ?_
  · exact wp_persistSnapshot (hrest _ _ (hreflects.withCheckpoint _) hsound rfl rfl) fun _ => hsound
  · obtain ⟨item, hitem, heq⟩ := mem_max hoffset
    exact ⟨item, ((hscan item).mp ((hmem item).mp hitem)).1.1, heq⟩
  · refine upTo_max ((hmem creator).mpr ((hall creator hcreator (hnone creator)).resolve_right
      fun hpassed => ?_))
    exact hpassed.not_makes hcreates.makes

/-- **What a start loads has seen exactly the events of the store**, and a load leaves the store
sound when it ends, well or not. -/
theorem wp_loadGroupStorage (h : store.Sound relay sources) :
    Wp relay.db.handle (fun _ => True) (loadGroupStorage limits now) store
      (fun storage store' => store'.Sound relay sources ∧
        LoadedFrom relay sources store storage store')
      fun _ store' => store'.Sound relay sources := by
  obtain ⟨outbox, hrows, hrecords⟩ := h.records
  refine Wp.seq wp_validateGroupCheckpoint (fun status checked _ ⟨hstore, hstatus⟩ => ?_)
    fun _ _ _ hstore => hstore ▸ h
  subst hstore
  refine Wp.seq (wp_scanExtraRecords (X := fun _ _ => False) .outbox)
    (fun outboxRecords scanned _ ⟨hstore, houtbox⟩ => ?_) fun _ _ _ hX => hX.elim
  subst hstore houtbox
  -- the outbox is read at the end of both branches
  let rest (projection : GroupProjection) : BaseM GroupStorageState := do
    return ⟨projection, ← liftM (loadGroupOutbox scanned.outbox.toList)⟩
  have hload : ∀ (projection : GroupProjection) (store' : PocketStore),
      ProjectionReflects .widest (· ∈ scanned.events) projection → store'.Sound relay sources →
      store'.events = scanned.events → store'.outbox = scanned.outbox →
      Wp relay.db.handle (fun _ => True) (rest projection) store'
        (fun storage store' => store'.Sound relay sources ∧
          LoadedFrom relay sources scanned storage store')
        fun _ store' => store'.Sound relay sources := by
    intro projection store' hreflects hsound hevents houtbox
    refine Wp.check_seq trivial (fun loaded hloaded => ?_) fun _ _ => hsound
    cases load_of_holdsRecords hrows hloaded
    exact Wp.pure trivial ⟨hsound, hreflects, hevents, houtbox ▸ hrows, hrecords⟩
  split
  · exact wp_rebuild h rest hload
  · next hrebuild =>
    obtain ⟨checkpoint, rfl⟩ : ∃ checkpoint, status = .current checkpoint := by
      cases status with
      | missing => exact absurd rfl hrebuild
      | stale checkpoint => exact absurd rfl hrebuild
      | current checkpoint => exact ⟨checkpoint, rfl⟩
    refine Wp.seq (wp_scanExtraRecords (X := fun _ _ => False) .projection)
      (fun rows rescanned _ ⟨hstore, hprojection⟩ => ?_) fun _ _ _ hX => hX.elim
    subst hstore hprojection
    refine Wp.check_seq trivial (fun loaded hloaded => ?_) fun _ _ => h
    obtain ⟨held, hheld, hcovers⟩ := h.rows
    cases load_of_holdsRows hcovers.named hheld hloaded
    refine Wp.seq (wp_applyCanonicalEventsAfterCheckpoint h hstatus hcovers)
      (fun projection store' _ ⟨hreflects, hsound, hevents, houtbox⟩ => ?_) fun _ _ _ hsound =>
        hsound
    exact hload projection store' hreflects hsound hevents houtbox

/-- Replays take batches of at least one record. -/
theorem GroupRuntimeConfig.maxOutboxReplayBatch_pos (config : GroupRuntimeConfig) :
    0 < config.limits.maxOutboxReplayBatch.toNat := by
  have hvalid := config.valid
  obtain ⟨_, hsettings, _⟩ := Except.bind_eq_ok.mp hvalid
  obtain ⟨_, _, hlimits⟩ := Except.bind_eq_ok.mp hsettings
  obtain ⟨_, _, hlimits⟩ := Except.bind_eq_ok.mp hlimits
  obtain ⟨_, _, hlimits⟩ := Except.bind_eq_ok.mp hlimits
  obtain ⟨_, _, hlimits⟩ := Except.bind_eq_ok.mp hlimits
  obtain ⟨_, _, hlimits⟩ := Except.bind_eq_ok.mp hlimits
  unfold requirePositive at hlimits
  split at hlimits
  · cases hlimits
  · next hne => exact Nat.pos_of_ne_zero hne

/-! ## Deriving records -/

namespace GroupServiceState

/-- A record of this key and payload is in the outbox. -/
def Holds (state : GroupServiceState) (record : GroupOutboxRecord) : Prop :=
  ∃ record', state.outbox.get record.key = some record' ∧ record'.payload = record.payload

/-- An event that is taken on the projection owes the records. -/
def PlansOn (relay : Relay) (state : GroupServiceState) (projection : GroupProjection)
    (item : StoredEvent) (records : List GroupOutboxRecord) : Prop :=
  ∃ eventClass, classifyGroupEvent item.event state.limits = .ok eventClass ∧
    projectStored relay.pocket { state with projection := projection } item.event eventClass
      item.storeOffset = .ok records

/-- Taken one by one on the projection, every event the relay did not sign owes records that are all
in the outbox. -/
def Derived (relay : Relay) (projection : GroupProjection) (items : List StoredEvent)
    (state : GroupServiceState) : Prop :=
  ∀ earlier item later, items = earlier ++ item :: later →
    item.event.pubkey ≠ state.builder.relayPubkey →
    ∃ before records, applyItems state.limits projection earlier = .ok before ∧
      PlansOn relay state before item records ∧ ∀ record ∈ records, state.Holds record

/-- A record that is held is held on. -/
theorem Holds.continues {record : GroupOutboxRecord} (h : state.Holds record)
    (hcontinues : Continues state store state' store') : state'.Holds record := by
  obtain ⟨found, hfound, hpayload⟩ := h
  obtain ⟨record', hget, heq⟩ := hcontinues.records _ _ hfound
  exact ⟨record', hget, heq.trans hpayload⟩

/-- Planning looks at what no step changes. -/
theorem PlansOn.setup {item : StoredEvent} {records : List GroupOutboxRecord}
    (h : PlansOn relay state projection item records) (hsetup : SameSetup state state') :
    PlansOn relay state' projection item records := by
  obtain ⟨eventClass, hclass, hplan⟩ := h
  refine ⟨eventClass, hsetup.limits ▸ hclass, ?_⟩
  unfold projectStored planOutboxRecords at hplan ⊢
  rw [hsetup.limits, hsetup.authority, hsetup.memberSnapshotCap]
  exact hplan

/-- What has been derived stays derived. -/
theorem Derived.continues {items : List StoredEvent} (h : Derived relay projection items state)
    (hcontinues : Continues state store state' store') : Derived relay projection items state' := by
  intro earlier item later heq hnot
  rw [hcontinues.builder] at hnot
  obtain ⟨before, records, hbefore, hplan, hheld⟩ := h earlier item later heq hnot
  exact ⟨before, records, hcontinues.limits ▸ hbefore, hplan.setup hcontinues.toSameSetup,
    fun record hrecord => (hheld record hrecord).continues hcontinues⟩

/-- One event of the derivation. -/
theorem wp_deriveRecordsOf {item : StoredEvent} (hmust : MustSee must)
    (h : Serves relay sources must state store) (hitem : item ∈ store.events)
    (hnamed : projection.Named) :
    WpState relay.db.handle (PocketStore.Sound relay sources)
      (deriveRecordsOf relay.pocket projection item) state store
      (fun projection' state' store' => Serves relay sources must state' store' ∧
        Continues state store state' store' ∧ store'.events = store.events ∧
        state'.projection = state.projection ∧
        applyItem state.limits projection item = .ok projection' ∧
        (item.event.pubkey ≠ state.builder.relayPubkey → ∃ records,
          PlansOn relay state projection item records ∧ ∀ record ∈ records, state'.Holds record))
      (fun _ => FailedStep relay sources state store) := by
  have hstay : FailedStep relay sources state store state store :=
    (Served.refl (P := fun _ => True) h).failed hmust
  refine WpState.get_seq ?_
  refine WpState.check_seq h.sound (fun eventClass hclass => ?_) fun _ _ => hstay
  refine WpState.check_seq h.sound (fun before hbefore => ?_) fun _ _ => hstay
  refine WpState.check_seq h.sound (fun result hresult => ?_) fun _ _ => hstay
  obtain ⟨outcome, projection'⟩ := result
  have hclass := Except.mapError_eq_ok.mp hclass
  have hbefore := Except.mapError_eq_ok.mp hbefore
  have hresult := Except.mapError_eq_ok.mp hresult
  have happly : applyItem state.limits projection item = .ok projection' :=
    applyItem_of_applyCanonicalEvent hresult
  dsimp only
  split
  · next hrelay =>
    refine WpState.pure h.sound ⟨h, .refl, rfl, rfl, happly, fun hnot => absurd ?_ hnot⟩
    exact Hex64.text_injective hrelay
  · refine WpState.check_seq h.sound (fun records hrecords => ?_) fun _ _ => hstay
    have hplan := Except.mapError_eq_ok.mp hrecords
    refine WpState.seq (wp_mergeRecords h fun record hrecord =>
      recordSound_of_plan hitem (hnamed.applyItem happly) rfl hclass hplan hrecord)
      (fun _ state' store' hsound ⟨hserves, hcontinues, hmerged⟩ => ?_)
      fun _ state' store' _ ⟨hserves, hcontinues⟩ =>
        ⟨hserves.weaken hmust.deletions_le, hcontinues⟩
    refine WpState.pure hsound ⟨hserves, hcontinues, hmerged.events, hmerged.projection, happly,
      fun _ => ⟨records, ⟨eventClass, hclass, ?_⟩, hmerged.present⟩⟩
    exact Except.bind_eq_ok.mpr ⟨before, hbefore, Except.bind_eq_ok.mpr ⟨_, hresult, hplan⟩⟩

/-- The events one after another. -/
theorem wp_deriveRecords {items : List StoredEvent} (hmust : MustSee must)
    (h : Serves relay sources must state store) (hitems : ∀ item ∈ items, item ∈ store.events)
    (hnamed : projection.Named) :
    WpState relay.db.handle (PocketStore.Sound relay sources)
      (items.foldlM (deriveRecordsOf relay.pocket) projection) state store
      (fun _ state' store' => Serves relay sources must state' store' ∧
        Continues state store state' store' ∧ store'.events = store.events ∧
        state'.projection = state.projection ∧ Derived relay projection items state')
      (fun _ => FailedStep relay sources state store) := by
  induction items generalizing projection state store with
  | nil =>
    refine WpState.pure h.sound ⟨h, .refl, rfl, rfl, fun earlier item later heq => ?_⟩
    cases earlier <;> cases heq
  | cons first rest ih =>
    rw [List.foldlM_cons]
    refine WpState.seq (wp_deriveRecordsOf hmust h (hitems first (List.mem_cons_self ..)) hnamed)
      (fun next state₁ store₁ _ ⟨hserves, hcontinues, hevents, hprojection, happly, hfirst⟩ => ?_)
      fun _ _ _ _ hX => hX
    refine (ih hserves (fun item hitem => hevents ▸ hitems item (List.mem_cons_of_mem _ hitem))
      (hnamed.applyItem happly)).mono
      (fun _ state₂ store₂ _ ⟨hserves₂, hcontinues₂, hevents₂, hprojection₂, hrest⟩ => ?_)
      fun _ state₂ store₂ _ hfailed => hfailed.after hcontinues
    have hall := hcontinues.trans hcontinues₂
    refine ⟨hserves₂, hall, hevents₂.trans hevents, hprojection₂.trans hprojection,
      fun earlier item later heq hnot => ?_⟩
    cases earlier with
    | nil =>
      obtain ⟨rfl, rfl⟩ := List.cons.inj heq
      rw [hall.builder] at hnot
      obtain ⟨records, hplan, hheld⟩ := hfirst hnot
      exact ⟨projection, records, rfl, hplan.setup hall.toSameSetup,
        fun record hrecord => (hheld record hrecord).continues hcontinues₂⟩
    | cons other earlier =>
      obtain ⟨rfl, rfl⟩ := List.cons.inj heq
      obtain ⟨before, records, hbefore, hplan, hheld⟩ := hrest earlier item later rfl hnot
      rw [← hall.limits] at happly
      exact ⟨before, records, Except.foldlM_cons_ok.mpr ⟨next, happly, hbefore⟩, hplan, hheld⟩

/-! ## Starting -/

/-- The group events of a store, in the order of their tuples. -/
def InTupleOrder (limits : GroupLimitsConfig) (store : PocketStore) (items : List StoredEvent) :
    Prop :=
  (∀ item, item ∈ items ↔
    item ∈ store.events ∧ classifyGroupEvent item.event limits ≠ .ok .nonGroup) ∧
  items.Pairwise fun a b => a.tuple ≤ b.tuple

/-- The event is the relay's, and the start generated it for an event that was stored before. -/
def GeneratedAtStart (relay : Relay) (state : GroupServiceState) (store : PocketStore)
    (item : StoredEvent) : Prop :=
  item.event.pubkey = state.builder.relayPubkey ∧
    ∃ source ∈ store.events, ∃ record, PlannedFor relay.pocket source.event record ∧
      state.builder.signPayloadPocket relay.pocket record.payload = .ok item.event

/-- What the last steps of a start have done: the records that stored events owe are there, and
none is left to try again. -/
structure Finished (relay : Relay) (sources : Sources) (must : StoredEvent → Prop)
    (state : GroupServiceState) (store : PocketStore) (state' : GroupServiceState)
    (store' : PocketStore) : Prop where
  served : Served relay sources must (GeneratedAtStart relay state store) state store state' store'
  derived : ∃ items, InTupleOrder state.limits store items ∧ Derived relay .new items state'
  replayed : state'.outbox.replayPlan = []

/-- **Deriving the missing records serves every event in the store**: each has its record
afterwards, or was the relay's own. By induction on the events in order. -/
theorem wp_deriveMissingOutboxRecords (hmust : MustSee must)
    (h : Serves relay sources must state store) :
    WpState relay.db.handle (PocketStore.Sound relay sources)
      (deriveMissingOutboxRecords relay.pocket) state store
      (fun _ state' store' => Serves relay sources must state' store' ∧
        Continues state store state' store' ∧ store'.events = store.events ∧
        state'.projection = state.projection ∧
        ∃ items, InTupleOrder state.limits store items ∧ Derived relay .new items state')
      (fun _ => FailedStep relay sources state store) := by
  refine WpState.get_seq (WpState.liftProg_seq (wp_scanCanonicalGroupEventsAfter h.sound)
    (fun scan scanned _ ⟨hstore, hscan⟩ => ?_) fun _ scanned _ hstore => ?_)
  · subst hstore
    have hmem : ∀ item, item ∈ sortByTuple scan.events ↔
        item ∈ scanned.events ∧ classifyGroupEvent item.event state.limits ≠ .ok .nonGroup := by
      intro item
      rw [sortByTuple, List.mem_insertionSort, hscan]
      refine and_congr_left fun _ => and_iff_left fun ⟨_, hnone, _⟩ => ?_
      cases hnone
    refine WpState.seq (wp_deriveRecords hmust h (fun item hitem => ((hmem item).mp hitem).1) .new)
      (fun _ state' store' hsound ⟨hserves, hcontinues, hevents, hprojection, hderived⟩ => ?_)
      fun _ _ _ _ hX => hX
    exact WpState.pure hsound ⟨hserves, hcontinues, hevents, hprojection,
      sortByTuple scan.events, ⟨hmem, pairwise_sortByTuple _⟩, hderived⟩
  · subst hstore
    exact (Served.refl (P := fun _ => True) h).failed hmust

/-- The end of a start derives the missing records and works them off. -/
theorem wp_finishStart (hmust : MustSee must) (h : Serves relay sources must state store) :
    WpState relay.db.handle (PocketStore.Sound relay sources) (finishStart relay.pocket) state store
      (fun _ => Finished relay sources must state store) fun _ =>
        FailedStep relay sources state store := by
  refine WpState.seq (wp_deriveMissingOutboxRecords hmust h)
    (fun _ state₁ store₁ _ ⟨hserves, hcontinues, hevents, hprojection, items, hitems, hderived⟩ =>
      ?_)
    fun _ _ _ _ hX => hX
  have hreplay := @wp_materializeWith relay sources must state₁ store₁ (fun _ => true) hmust hserves
  refine WpState.seq hreplay
    (fun offsets state₂ store₂ hsound ⟨hserved, hreplayed⟩ => ?_)
    fun _ _ _ _ hfailed => hfailed.after hcontinues
  refine WpState.pure hsound ⟨(Served.of_same hserves hcontinues hevents hprojection).trans
    (hserved.mono fun item ⟨record, hrecord, hsign⟩ => ⟨?_, ?_⟩),
    ⟨items, hitems, hderived.continues hserved.continues⟩, hreplayed.done⟩
  · rw [(event_of_sign relay.lawful hserves.signer hsign).2.1, hcontinues.builder]
    rfl
  · have hget := ((mem_plan_iff hserves.rows.keyed).mp hrecord).1
    obtain ⟨source, hsource, hplanned⟩ := (hserves.records _ _ hget).planned
    exact ⟨source, hevents ▸ hsource, record, hplanned, hcontinues.builder ▸ hsign⟩

/-- A run of a step from a service of its own ends with what the step leaves, whether or not it
fails. -/
theorem wp_runFrom {C : PocketStore → Prop} {step : ServiceM Unit}
    {Q : Unit → GroupServiceState → PocketStore → Prop}
    {X : BaseRelayError → GroupServiceState → PocketStore → Prop}
    (hstep : WpState relay.db.handle C step state store Q X) :
    Wp relay.db.handle C (runFrom step state) store (fun state' => Q () state')
      fun e store' => ∃ state', X e state' store' := by
  refine Prog.safe_bind.mpr (Prog.Safe.mono hstep fun result store' hC hend => ?_)
  obtain ⟨e | a, state'⟩ := result
  · exact Prog.safe_pure.mpr ⟨hC, state', hend⟩
  · exact Prog.safe_pure.mpr ⟨hC, hend⟩

/-- The service serves what it has loaded, having seen every event. -/
theorem serves_of_loaded {config : GroupRuntimeConfig} {signer : RelaySigner}
    {storage : GroupStorageState} (hsigner : configuredSigner relay.pocket config = .ok signer)
    (hknown : sources.signer signer) (hsound : store'.Sound relay sources)
    (hloaded : LoadedFrom relay sources store storage store') :
    Serves relay sources (fun _ => True) (ofStorage config signer storage) store' where
  sound := hsound
  covers := by
    refine hloaded.projection.mono (fun _ hitem => ?_) fun _ hitem => ?_
    · exact hloaded.events ▸ hitem.1
    · exact hloaded.events ▸ hitem
  rows := hloaded.outbox
  records := hloaded.events ▸ hloaded.records
  signer := by
    unfold configuredSigner at hsigner
    split at hsigner
    · next secret hsecret =>
      obtain ⟨publicKey, hkey, hsigner⟩ := Except.bind_eq_ok.mp (Except.mapError_eq_ok.mp hsigner)
      cases hsigner
      exact hkey
    · cases hsigner
  known := hknown
  batch := config.maxOutboxReplayBatch_pos

end GroupServiceState

/-- What a start has made of a store. -/
structure Started (relay : Relay) (sources : Sources) (config : GroupRuntimeConfig)
    (store : PocketStore) (state : GroupServiceState) (store' : PocketStore) : Prop where
  serves : Serves relay sources (fun _ => True) state store'
  events : store.events <+: store'.events
  setup : ∃ signer storage loaded, GroupServiceState.configuredSigner relay.pocket config =
    .ok signer ∧
    LoadedFrom relay sources store storage loaded ∧
    GroupServiceState.Finished relay sources (fun _ => True)
      (GroupServiceState.ofStorage config signer storage) loaded state store'

/-- **A start that ends leaves a sound store**, and if it succeeds the service has seen every event,
the records that stored events owe are there and none is left to try again. -/
theorem wp_start {config : GroupRuntimeConfig} (h : store.Sound relay sources)
    (hknown : ∀ signer, GroupServiceState.configuredSigner relay.pocket config = .ok signer →
      sources.signer signer) :
    Wp relay.db.handle (fun _ => True) (relay.start config now) store
      (fun groups store' => (groups = none ∧ store' = store) ∨
        ∃ state, groups = some state ∧ Started relay sources config store state store')
      fun _ store' => store'.Sound relay sources := by
  unfold Relay.start GroupServiceState.fromConfig
  split
  · exact Wp.pure trivial (.inl ⟨rfl, rfl⟩)
  refine Wp.check_seq trivial (fun signer hsigner => ?_) fun _ _ => h
  refine Wp.seq (wp_loadGroupStorage h) (fun storage loaded _ ⟨hsound, hloaded⟩ => ?_)
    fun _ _ _ hsound => hsound
  have hserves := GroupServiceState.serves_of_loaded hsigner (hknown signer hsigner) hsound
    hloaded
  refine Wp.seq (GroupServiceState.wp_runFrom
    (GroupServiceState.wp_finishStart .all hserves)).forget
    (fun state store' _ ⟨_, hfinished⟩ => ?_) fun _ store' _ ⟨hsound, _⟩ => hsound
  refine Wp.pure trivial (.inr ⟨state, rfl, hfinished.served.serves, ?_, signer, storage, loaded,
    hsigner, hloaded, hfinished⟩)
  exact hloaded.events ▸ hfinished.served.continues.events

/-- A start that is stopped after it has loaded leaves a sound store. -/
theorem sound_of_finishStopped {config : GroupRuntimeConfig} {signer : RelaySigner}
    {storage : GroupStorageState} (h : store.Sound relay sources)
    (hsigner : GroupServiceState.configuredSigner relay.pocket config = .ok signer)
    (hknown : sources.signer signer) {loaded : PocketStore}
    (hload : exec relay.db.handle (loadGroupStorage config.limits now) store =
      (.ok storage, loaded))
    (hstop : store' ∈ ((GroupServiceState.finishStart relay.pocket).run.run
      (GroupServiceState.ofStorage config signer storage)).states relay.db.handle loaded) :
    store'.Sound relay sources := by
  obtain ⟨hsound, hloaded⟩ := (wp_loadGroupStorage h).exec hload
  exact (GroupServiceState.wp_finishStart .all
    (GroupServiceState.serves_of_loaded hsigner hknown hsound hloaded)).1 _ hstop

end Tangle
