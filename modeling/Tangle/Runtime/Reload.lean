import Tangle.Runtime.Rows

/-!
# Writing, checking and scanning tables

What the programs that write rows, check tables and scan events leave and return: a row at a time is
put under the key of its entry, so the rows of a group, or of a snapshot, are those of the
projection; a check changes nothing; a scan finds the group events after an offset.
-/

namespace Tangle

variable {db : PocketDb} {store : PocketStore} {projection : GroupProjection}

/-! ## Writing rows -/

/-- Puts rows into a table. -/
def putRows (rows : BTreeMap Text ExtraValue) (records : List (Text × ExtraValue)) :
    BTreeMap Text ExtraValue :=
  records.foldl (fun rows record => rows.insert record.1 record.2) rows

theorem exec_putProjectionRows (records : List (Text × ExtraValue)) :
    exec db.handle (putProjectionRows records) store =
      (.ok (), { store with projection := putRows store.projection records }) := by
  unfold putProjectionRows
  induction records generalizing store with
  | nil => rfl
  | cons record rest ih =>
    rw [List.forM_cons, exec_bind_ok (exec_putExtraRecord _ _ _)]
    exact ih

/-- A table after some entries of a projection were put. -/
theorem HoldsRows.putRows {row : ProjectionKey → Option ExtraValue}
    {rows : BTreeMap Text ExtraValue} {records : List (Text × ExtraValue)}
    (h : HoldsRows row rows) (hrecords : ∀ record ∈ records, ∃ key : ProjectionKey,
      key.text = record.1 ∧ projection.row key = some record.2) {row' :
        ProjectionKey → Option ExtraValue}
    (hput : ∀ key, (∃ value, (key.text, value) ∈ records) → row' key = projection.row key)
    (hkept : ∀ key, (¬∃ value, (key.text, value) ∈ records) → row' key = row key) :
    HoldsRows row' (Tangle.putRows rows records) := by
  induction records generalizing row rows with
  | nil => exact h.congr fun key => (hkept key fun ⟨_, hmem⟩ => (nomatch hmem)).symm
  | cons record rest ih =>
    obtain ⟨key, hkey, hrow⟩ := hrecords record (List.mem_cons_self ..)
    have hinsert := h.insert key record.2
    rw [hkey] at hinsert
    refine ih hinsert (fun r hr => hrecords r (List.mem_cons_of_mem _ hr))
      (fun other ⟨value, hmem⟩ => hput other ⟨value, List.mem_cons_of_mem _ hmem⟩)
      fun other hnot => ?_
    by_cases heq : other = key
    · subst heq
      rw [Function.update_self, ← hrow]
      exact hput other ⟨record.2, by rw [hkey]; exact List.mem_cons_self ..⟩
    · rw [Function.update_of_ne heq]
      refine hkept other fun ⟨value, hmem⟩ => ?_
      rcases List.mem_cons.mp hmem with hmem | hmem
      · have htext : other.text = key.text := (congrArg Prod.fst hmem).trans hkey.symm
        exact heq (ProjectionKey.text_injective htext)
      · exact hnot ⟨value, hmem⟩

/-- The rows of a group are those of its entries. -/
theorem mem_groupRows {groupId : GroupId} {record : Text × ExtraValue} :
    record ∈ groupRows projection groupId ↔ ∃ key : ProjectionKey, key.text = record.1 ∧
      projection.row key = some record.2 ∧ projection.groupOf key = some groupId := by
  obtain ⟨text, value⟩ := record
  simp only [groupRows, List.mem_append, List.mem_map]
  refine ⟨fun h => ?_, fun ⟨key, hkey, hrow, hgroup⟩ => ?_⟩
  · rcases h with (((⟨group, hgroup, heq⟩ | ⟨entry, hentry, heq⟩) | ⟨entry, hentry, heq⟩) |
      ⟨tombstone, htombstone, heq⟩) | ⟨entry, hentry, heq⟩
    · cases heq
      exact ⟨.group groupId, rfl, by
        rw [GroupProjection.row, Option.mem_toList.mp hgroup]; rfl, rfl⟩
    · obtain ⟨hlookup, hkeep⟩ := List.mem_filter.mp hentry
      cases heq
      have hid : (ofLex entry.1).1 = groupId := beq_iff_eq.mp hkeep
      refine ⟨.member groupId (ofLex entry.1).2, rfl, ?_, rfl⟩
      have hmember : projection.member groupId (ofLex entry.1).2 = some entry.2 := by
        rw [← hid]
        exact BTreeMap.mem_toList.mp hlookup
      rw [GroupProjection.row, hmember]
      rfl
    · obtain ⟨hlookup, hkeep⟩ := List.mem_filter.mp hentry
      cases heq
      have hid : (ofLex entry.1).1 = groupId := beq_iff_eq.mp hkeep
      refine ⟨.role groupId (ofLex entry.1).2, rfl, ?_, rfl⟩
      have hrole : projection.roles[toLex (groupId, (ofLex entry.1).2)]? = some entry.2 := by
        rw [← hid]
        exact BTreeMap.mem_toList.mp hlookup
      rw [GroupProjection.row, hrole]
      rfl
    · cases heq
      refine ⟨.tombstone groupId, rfl, ?_, rfl⟩
      rw [GroupProjection.row, Option.mem_toList.mp htombstone]
      rfl
    · obtain ⟨hlookup, hkeep⟩ := List.mem_filter.mp hentry
      cases heq
      have hdeletion : projection.eventDeletion entry.1 = some entry.2 :=
        BTreeMap.mem_toList.mp hlookup
      refine ⟨.eventDeletion entry.1, rfl, ?_, ?_⟩
      · rw [GroupProjection.row, hdeletion]
        rfl
      · rw [GroupProjection.groupOf, hdeletion]
        exact congrArg some (beq_iff_eq.mp hkeep)
  · cases key with
    | group id =>
      obtain ⟨group, hfound, rfl⟩ := Option.map_eq_some_iff.mp hrow
      cases hgroup
      cases hkey
      exact .inl (.inl (.inl (.inl ⟨group, Option.mem_toList.mpr hfound, rfl⟩)))
    | member id pubkey =>
      obtain ⟨member, hfound, rfl⟩ := Option.map_eq_some_iff.mp hrow
      cases hgroup
      cases hkey
      exact .inl (.inl (.inl (.inr ⟨(toLex (groupId, pubkey), member),
        List.mem_filter.mpr ⟨BTreeMap.mem_toList.mpr hfound, beq_self_eq_true groupId⟩, rfl⟩)))
    | role id roleName =>
      obtain ⟨role, hfound, rfl⟩ := Option.map_eq_some_iff.mp hrow
      cases hgroup
      cases hkey
      exact .inl (.inl (.inr ⟨(toLex (groupId, roleName), role),
        List.mem_filter.mpr ⟨BTreeMap.mem_toList.mpr hfound, beq_self_eq_true groupId⟩, rfl⟩))
    | tombstone id =>
      obtain ⟨tombstone, hfound, rfl⟩ := Option.map_eq_some_iff.mp hrow
      cases hgroup
      cases hkey
      exact .inl (.inr ⟨tombstone, Option.mem_toList.mpr hfound, rfl⟩)
    | eventDeletion eventId =>
      obtain ⟨deletion, hfound, rfl⟩ := Option.map_eq_some_iff.mp hrow
      rw [GroupProjection.groupOf, hfound] at hgroup
      cases hgroup
      cases hkey
      exact .inr ⟨(eventId, deletion),
        List.mem_filter.mpr ⟨BTreeMap.mem_toList.mpr hfound, beq_self_eq_true _⟩, rfl⟩

/-- The rows of a snapshot are those of all entries. -/
theorem mem_snapshotRows {record : Text × ExtraValue} : record ∈ snapshotRows projection ↔
    ∃ key : ProjectionKey, key.text = record.1 ∧ projection.row key = some record.2 := by
  obtain ⟨text, value⟩ := record
  simp only [snapshotRows, List.mem_append, List.mem_map]
  refine ⟨fun h => ?_, fun ⟨key, hkey, hrow⟩ => ?_⟩
  · rcases h with (((⟨entry, hentry, heq⟩ | ⟨entry, hentry, heq⟩) | ⟨entry, hentry, heq⟩) |
      ⟨entry, hentry, heq⟩) | ⟨entry, hentry, heq⟩
    · cases heq
      have hfound : projection.group entry.1 = some entry.2 := BTreeMap.mem_toList.mp hentry
      exact ⟨.group entry.1, rfl, by rw [GroupProjection.row, hfound]; rfl⟩
    · cases heq
      have hfound : projection.member (ofLex entry.1).1 (ofLex entry.1).2 = some entry.2 :=
        BTreeMap.mem_toList.mp hentry
      exact ⟨.member (ofLex entry.1).1 (ofLex entry.1).2, rfl,
        by rw [GroupProjection.row, hfound]; rfl⟩
    · cases heq
      have hfound : projection.roles[toLex ((ofLex entry.1).1, (ofLex entry.1).2)]? =
        some entry.2 := BTreeMap.mem_toList.mp hentry
      exact ⟨.role (ofLex entry.1).1 (ofLex entry.1).2, rfl,
        by rw [GroupProjection.row, hfound]; rfl⟩
    · cases heq
      have hfound : projection.tombstone entry.1 = some entry.2 := BTreeMap.mem_toList.mp hentry
      exact ⟨.tombstone entry.1, rfl, by rw [GroupProjection.row, hfound]; rfl⟩
    · cases heq
      have hfound : projection.eventDeletion entry.1 = some entry.2 :=
        BTreeMap.mem_toList.mp hentry
      exact ⟨.eventDeletion entry.1, rfl, by rw [GroupProjection.row, hfound]; rfl⟩
  · cases key with
    | group id =>
      obtain ⟨group, hfound, rfl⟩ := Option.map_eq_some_iff.mp hrow
      cases hkey
      exact .inl (.inl (.inl (.inl ⟨(id, group), BTreeMap.mem_toList.mpr hfound, rfl⟩)))
    | member id pubkey =>
      obtain ⟨member, hfound, rfl⟩ := Option.map_eq_some_iff.mp hrow
      cases hkey
      exact .inl (.inl (.inl (.inr ⟨(toLex (id, pubkey), member),
        BTreeMap.mem_toList.mpr hfound, rfl⟩)))
    | role id roleName =>
      obtain ⟨role, hfound, rfl⟩ := Option.map_eq_some_iff.mp hrow
      cases hkey
      exact .inl (.inl (.inr ⟨(toLex (id, roleName), role), BTreeMap.mem_toList.mpr hfound, rfl⟩))
    | tombstone id =>
      obtain ⟨tombstone, hfound, rfl⟩ := Option.map_eq_some_iff.mp hrow
      cases hkey
      exact .inl (.inr ⟨(id, tombstone), BTreeMap.mem_toList.mpr hfound, rfl⟩)
    | eventDeletion eventId =>
      obtain ⟨deletion, hfound, rfl⟩ := Option.map_eq_some_iff.mp hrow
      cases hkey
      exact .inr ⟨(eventId, deletion), BTreeMap.mem_toList.mpr hfound, rfl⟩

/-- The rows of one group are rewritten; the other rows are the projection's already. -/
theorem HoldsRows.persistGroup {row : ProjectionKey → Option ExtraValue}
    {rows : BTreeMap Text ExtraValue} {groupId : GroupId} (h : HoldsRows row rows)
    (hsame : ∀ key, (∀ value, projection.row key = some value →
      projection.groupOf key ≠ some groupId) → row key = projection.row key) :
    HoldsRows projection.row (Tangle.putRows rows (groupRows projection groupId)) := by
  refine h.putRows (fun record hrecord => ?_) (fun _ _ => rfl) fun key hnot => ?_
  · obtain ⟨key, hkey, hrow, _⟩ := mem_groupRows.mp hrecord
    exact ⟨key, hkey, hrow⟩
  · refine (hsame key fun value hrow hgroup => ?_).symm
    exact hnot ⟨value, mem_groupRows.mpr ⟨key, rfl, hrow, hgroup⟩⟩

/-- A snapshot into an empty table. -/
theorem HoldsRows.snapshot :
    HoldsRows projection.row (Tangle.putRows ∅ (snapshotRows projection)) := by
  refine HoldsRows.empty.putRows (fun record hrecord => mem_snapshotRows.mp hrecord)
    (fun _ _ => rfl) fun key hnot => ?_
  cases hrow : projection.row key with
  | none => rfl
  | some value => exact absurd ⟨value, mem_snapshotRows.mpr ⟨key, rfl, hrow⟩⟩ hnot

theorem exec_clearExtraTable : exec db.handle (clearExtraTable .projection) store =
    (.ok (), { store with projection := ∅ }) := by
  have hdelete : ∀ (records : List (Text × ExtraValue)) (store : PocketStore),
      exec db.handle (forM records fun record =>
        StoreM.deleteExtraRecord BaseRelayError.error .projection record.1) store =
      (.ok (), { store with
        projection :=
          records.foldl (fun rows record => rows.erase record.1) store.projection }) := by
    intro records
    induction records with
    | nil => exact fun _ => rfl
    | cons record rest ih =>
      intro store
      rw [List.forM_cons, exec_bind_ok (exec_deleteExtraRecord _ _)]
      exact ih _
  have hlookup : ∀ (records : List (Text × ExtraValue)) (rows : BTreeMap Text ExtraValue) key,
      (records.foldl (fun rows record => rows.erase record.1) rows)[key]? =
        if key ∈ records.map Prod.fst then none else rows[key]? := by
    intro records
    induction records with
    | nil => simp
    | cons record rest ih =>
      intro rows key
      rw [List.foldl_cons, ih, BTreeMap.getElem?_erase]
      simp only [List.map_cons, List.mem_cons]
      by_cases heq : key = record.1
      · simp [heq]
      · simp only [heq, Ne.symm heq, false_or, if_false]
  have hempty : store.projection.toList.foldl (fun rows record => rows.erase record.1)
      store.projection = ∅ := by
    refine BTreeMap.ext fun key => ?_
    rw [hlookup, BTreeMap.getElem?_empty]
    split
    · rfl
    · next hnot =>
      cases hfound : store.projection[key]? with
      | none => rfl
      | some value =>
        exact absurd (List.mem_map.mpr ⟨(key, value), BTreeMap.mem_toList.mpr hfound, rfl⟩) hnot
  unfold clearExtraTable
  rw [exec_bind_ok (exec_scanExtraRecords _), hdelete]
  exact congrArg (fun rows => (_, { store with projection := rows })) hempty

/-- A snapshot leaves the rows of the projection and its checkpoint. -/
theorem exec_persistSnapshot {checkpoint : ProjectionCheckpoint}
    (hcheckpoint : projection.checkpoint = some checkpoint) :
    exec db.handle (persistGroupProjectionSnapshot projection) store =
      (.ok (), { store with
        projection := putRows ∅ (snapshotRows projection)
        checkpoint :=
          store.checkpoint.insert projectionCheckpointKey checkpoint.toJsonBytes }) := by
  unfold persistGroupProjectionSnapshot
  rw [exec_bind_ok exec_clearExtraTable, exec_bind_ok (exec_putProjectionRows _), hcheckpoint]
  exact exec_putExtraRecord _ _ _

/-! ## Checking the tables -/

/-- The status of the checkpoint the store holds. -/
def PocketStore.checkpointStatus (store : PocketStore) :
    Except GroupError GroupCheckpointStatus :=
  GroupCheckpointStatus.ofRow store.checkpoint[projectionCheckpointKey]?

theorem exec_validateGroupCheckpoint : exec db.handle validateGroupCheckpoint store =
    (store.checkpointStatus.mapError BaseRelayError.ofGroup, store) := by
  unfold validateGroupCheckpoint liftGroup
  rw [exec_bind_ok (exec_getExtraRecord _ _), exec_liftExcept]
  rfl

/-- Checking the tables changes nothing. -/
theorem exec_validateRebuilt_store {result : Except BaseRelayError Unit} {store' : PocketStore}
    (h : exec db.handle validateRebuiltGroupProjection store = (result, store')) :
    store' = store := by
  have hkeeps := @keeps_validateRebuiltGroupProjection db (· = store)
  have hend := (hkeeps store rfl).1 _ (Prog.run_mem_states _ _)
  unfold exec at h
  rw [h] at hend
  exact hend

/-! ## Scans -/

section
variable {limits : GroupLimitsConfig} {lastOffset : Option StoreOffset}

/-- An event of no group is passed over, whatever the limits. -/
theorem passedOver_of_nonGroup {item : StoredEvent}
    (h : classifyGroupEvent item.event limits = .ok .nonGroup) : PassedOver .widest item :=
  Except.bind_eq_ok.mpr ⟨_, classifyGroupEvent_widest h, rfl⟩

/-- What a scan keeps: the events that are of a group. All of them can be classified. -/
theorem scanClassified_eq_ok {stored : List StoredEvent} {scan : CanonicalGroupEventScan}
    (h : scanClassified limits stored = .ok scan) :
    (∀ item ∈ stored, (classifyGroupEvent item.event limits).Succeeds) ∧
      ∀ item, item ∈ scan.events ↔
        item ∈ stored ∧ classifyGroupEvent item.event limits ≠ .ok .nonGroup := by
  unfold scanClassified at h
  generalize hstart : (⟨[], stored.length, 0⟩ : CanonicalGroupEventScan) = start at h
  have hevents : start.events = [] := by rw [← hstart]
  have hfold : (∀ item ∈ stored, (classifyGroupEvent item.event limits).Succeeds) ∧
      ∀ item, item ∈ scan.events ↔ item ∈ start.events ∨
        item ∈ stored ∧ classifyGroupEvent item.event limits ≠ .ok .nonGroup := by
    clear hstart hevents
    induction stored generalizing start with
    | nil =>
      cases h
      exact ⟨fun _ h => (nomatch h), fun item => by simp⟩
    | cons first rest ih =>
      obtain ⟨next, hnext, hrest⟩ := Except.foldlM_cons_ok.mp h
      obtain ⟨eventClass, hclass, hnext⟩ := Except.bind_eq_ok.mp hnext
      obtain ⟨hsucceeds, hmem⟩ := ih next hrest
      refine ⟨fun item hitem => ?_, fun item => ?_⟩
      · rcases List.mem_cons.mp hitem with rfl | hitem
        · exact ⟨eventClass, hclass⟩
        · exact hsucceeds item hitem
      · rw [hmem, List.mem_cons]
        have hfirst : item ∈ next.events ↔ item ∈ start.events ∨
            item = first ∧ classifyGroupEvent item.event limits ≠ .ok .nonGroup := by
          by_cases heq : item = first
          · subst heq
            rw [hclass]
            cases eventClass with
            | nonGroup => cases hnext; simp
            | _ => cases hnext; simp
          · cases eventClass with
            | nonGroup => cases hnext; simp [heq]
            | _ => cases hnext; simp [heq]
        rw [hfirst, or_assoc, or_and_right]
  rw [hevents] at hfold
  exact ⟨hfold.1, fun item => (hfold.2 item).trans (by simp)⟩

theorem mem_of_scanAfter {events stored : List StoredEvent}
    (h : PocketDb.scanAfter events lastOffset = .ok stored) (item : StoredEvent) :
    item ∈ stored ↔ item ∈ events ∧ ¬UpTo lastOffset item := by
  unfold UpTo
  cases lastOffset with
  | none => cases h; simp
  | some offset =>
    simp only [PocketDb.scanAfter] at h
    split at h
    · cases h
      simp
    · cases h

end

/-! ## Checkpoints -/

/-- The checkpoint is no part of what a projection has seen. -/
theorem ProjectionCovers.withCheckpoint {limits : GroupLimitsConfig}
    {L₀ L : CanonicalGroupEvent → Prop} (h : ProjectionCovers limits L₀ L projection)
    (checkpoint : Option ProjectionCheckpoint) :
    ProjectionCovers limits L₀ L { projection with checkpoint := checkpoint } where
  members := h.members
  tombstones := h.tombstones
  eventDeletions := h.eventDeletions
  roles := h.roles
  groups := h.groups
  present := h.present

theorem GroupProjection.row_withCheckpoint (checkpoint : Option ProjectionCheckpoint) :
    ({ projection with checkpoint := checkpoint } : GroupProjection).row = projection.row := by
  funext key
  cases key <;> rfl

end Tangle
