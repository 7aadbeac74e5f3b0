import Tangle.Groups.Membership
import Tangle.Runtime.Reload
import Tangle.Runtime.Script

/-!
# Writing the projection and reading it back

A snapshot of a projection and its checkpoint is read back as the same projection, provided that the
ids of its groups are within the bound that the documents are read with. That bound is fixed, while
the bound that an event's group tag is read with is configured, so the proviso may fail
(`projection_roundTrips_iff`).
-/

namespace Tangle

variable {limits : GroupLimitsConfig} {projection projection' : GroupProjection}

/-! ## Rows that can be read -/

/-- A row that is read names a group with a short id. -/
theorem short_of_loadProjectionRow {loaded : GroupProjection} {key : ProjectionKey}
    {value : ExtraValue} {groupId : GroupId} (hnamed : projection.Named)
    (hrow : projection.row key = some value) (hgroup : projection.groupOf key = some groupId)
    (hload : (loadProjectionRow loaded key.text value).Succeeds) :
    groupId.text.byteLen ≤ maxGroupIdBytes := by
  unfold loadProjectionRow at hload
  rw [ProjectionKey.splitNul_text] at hload
  cases key with
  | group groupId =>
    obtain ⟨group, hfound, rfl⟩ := Option.map_eq_some_iff.mp hrow
    cases hgroup
    simp only [ProjectionKey.parts, if_true, Except.succeeds_map, Except.succeeds_mapError] at hload
    obtain ⟨read, hread⟩ := hload
    exact hnamed.group hfound ▸ (GroupState.fromJsonBytes_toJsonBytes_eq_ok.mp hread).2
  | member groupId pubkey =>
    cases hgroup
    simp only [ProjectionKey.parts, if_true] at hload
    obtain ⟨_, hid, _⟩ := Except.succeeds_bind.mp hload
    exact (GroupId.new_text_iff.mp (Except.mapError_eq_ok.mp hid)).2
  | role groupId roleName =>
    cases hgroup
    have hne : "role".toList ≠ "member".toList := by decide
    simp only [ProjectionKey.parts, hne, if_false, if_true] at hload
    obtain ⟨_, hid, _⟩ := Except.succeeds_bind.mp hload
    exact (GroupId.new_text_iff.mp (Except.mapError_eq_ok.mp hid)).2
  | tombstone groupId =>
    obtain ⟨tombstone, hfound, rfl⟩ := Option.map_eq_some_iff.mp hrow
    cases hgroup
    have hne : "tombstone".toList ≠ "group".toList := by decide
    simp only [ProjectionKey.parts, hne, if_false, if_true, Except.succeeds_map,
      Except.succeeds_mapError] at hload
    obtain ⟨read, hread⟩ := hload
    exact hnamed.tombstone hfound ▸ (GroupTombstone.fromJsonBytes_toJsonBytes_eq_ok.mp hread).2
  | eventDeletion eventId =>
    obtain ⟨deletion, hfound, rfl⟩ := Option.map_eq_some_iff.mp hrow
    rw [GroupProjection.groupOf, hfound] at hgroup
    cases hgroup
    have hne : "event_deletion".toList ≠ "group".toList := by decide
    have hne' : "event_deletion".toList ≠ "tombstone".toList := by decide
    simp only [ProjectionKey.parts, hne, hne', if_false, if_true, Except.succeeds_map,
      Except.succeeds_mapError] at hload
    obtain ⟨read, hread⟩ := hload
    exact (GroupEventDeletion.fromJsonBytes_toJsonBytes_eq_ok.mp hread).2

/-- Rows that are read name groups with short ids. -/
theorem shortIds_of_load {rows : BTreeMap Text ExtraValue}
    {checkpoint : Option ProjectionCheckpoint}
    (hnamed : projection.Named) (hrows : HoldsRows projection.row rows)
    (hload : (loadGroupProjection rows.toList checkpoint).Succeeds) : projection.ShortIds := by
  intro key value groupId hrow hgroup
  obtain ⟨loaded, hload⟩ := hload
  obtain ⟨_, hfold, _⟩ := Except.bind_eq_ok.mp hload
  have hmem : (key.text, value) ∈ rows.toList :=
    BTreeMap.mem_toList.mpr ((hrows.lookup key).trans hrow)
  obtain ⟨_, hread⟩ := Except.foldlM_steps hfold _ hmem
  exact short_of_loadProjectionRow hnamed hrow hgroup hread

/-! ## The theorem -/

/-- The rows of a snapshot, and what they are read back as. -/
def snapshotReadBack (db : PocketDb) (store : PocketStore) (projection : GroupProjection)
    (checkpoint : ProjectionCheckpoint) : Except BaseRelayError GroupProjection := do
  let (result, store') := exec db.handle
    (persistGroupProjectionSnapshot (projection.setCheckpoint checkpoint)) store
  result
  loadGroupProjection store'.projection.toList (some checkpoint)

theorem snapshotReadBack_eq {db : PocketDb} {store : PocketStore}
    (checkpoint : ProjectionCheckpoint) :
    snapshotReadBack db store projection checkpoint =
      loadGroupProjection (putRows ∅ (snapshotRows (projection.setCheckpoint checkpoint))).toList
        (some checkpoint) := by
  unfold snapshotReadBack
  rw [@exec_persistSnapshot db store (projection.setCheckpoint checkpoint) checkpoint rfl]
  rfl

/-- **When a projection survives being written and read.** Whatever the limits, the snapshot of a
projection that any events have led to is read back as that projection, and every entry has a key of
its own whose parts are recovered, exactly when the ids of its groups are within the bound of the
documents. -/
theorem projection_roundTrips_iff {db : PocketDb} {store : PocketStore}
    {items : List CanonicalGroupEvent} (checkpoint : ProjectionCheckpoint)
    (happly : applyItems limits .new items = .ok projection) :
    (snapshotReadBack db store projection checkpoint =
        .ok (projection.setCheckpoint checkpoint) ∧
      (∀ key key' : ProjectionKey, key.text = key'.text → key = key') ∧
      ∀ key : ProjectionKey, splitNul key.text = key.parts) ↔
    projection.ShortIds := by
  have hnamed : projection.Named := GroupProjection.Named.new.applyItems happly
  have hrows : HoldsRows projection.row
      (putRows ∅ (snapshotRows (projection.setCheckpoint checkpoint))) := by
    have hsnapshot := @HoldsRows.snapshot (projection.setCheckpoint checkpoint)
    rwa [GroupProjection.setCheckpoint, GroupProjection.row_withCheckpoint] at hsnapshot
  rw [snapshotReadBack_eq]
  refine ⟨fun ⟨hload, _⟩ => shortIds_of_load hnamed hrows ⟨_, hload⟩, fun hshort => ⟨?_, ?_, ?_⟩⟩
  · exact loads_of_shortIds hnamed hrows hshort
  · exact fun _ _ h => ProjectionKey.text_injective h
  · exact ProjectionKey.splitNul_text

/-! ## A group id that is accepted and cannot be read back -/

namespace Sample

/-- Limits that pass their check and take group ids of up to 200 bytes. -/
def longIdLimits : GroupLimitsConfig :=
  { GroupLimitsConfig.default with maxGroupIdBytes := 200 }

def createWithId (id : Text) : CanonicalGroupEvent :=
  ⟨.ofTexts (.repeated '1' (Eq.refl true)) (.repeated 'a' (Eq.refl true)) 9007 10
    [["h".toList, id]], 8⟩

def longId : GroupId :=
  ⟨List.replicate 129 'a', ((@validateGroupId_eq_ok _ 200).mp (by decide +kernel)).1⟩

end Sample

section
open Sample

/-- A group whose id is short enough survives being written and read: every row is decoded into the
entry that it came from. -/
theorem projection_roundTrips_iff_farm : ∃ projection,
    applyItems longIdLimits .new [createWithId "farm".toList] = .ok projection ∧
      snapshotReadBack plainDb .empty projection (.current (some 8) 20) =
        .ok (projection.setCheckpoint (.current (some 8) 20)) := by
  have hevents : (applyItems longIdLimits .new [createWithId "farm".toList]).Succeeds ∧
      ((applyItems longIdLimits .new [createWithId "farm".toList]).bind fun projection =>
        (loadGroupProjection (putRows ∅ (snapshotRows projection)).toList none).mapError
          fun _ => GroupError.internal "").Succeeds := by
    decide +kernel
  obtain ⟨⟨projection, happly⟩, hload⟩ := hevents
  rw [happly] at hload
  have hshort := shortIds_of_load (GroupProjection.Named.new.applyItems happly)
    HoldsRows.snapshot (Except.succeeds_mapError.mp hload)
  exact ⟨projection, happly, ((projection_roundTrips_iff _ happly).mpr hshort).1⟩

/-- A group with an id of 129 bytes is projected under limits that allow it. Its rows are written,
and cannot be read: the reader takes an id of 128 bytes at most, whatever the limits are. -/
theorem longId_not_readBack : longIdLimits.validate = .ok () ∧ ∃ projection,
    applyItems longIdLimits .new [createWithId longId.text] = .ok projection ∧
      snapshotReadBack plainDb .empty projection (.current (some 8) 20) ≠
        .ok (projection.setCheckpoint (.current (some 8) 20)) := by
  have hevents : ((fun projection : GroupProjection => (projection.group longId).isSome) <$>
      applyItems longIdLimits .new [createWithId longId.text]) = .ok true := by
    decide +kernel
  obtain ⟨projection, happly, hgroup⟩ := Except.map_eq_ok.mp hevents
  refine ⟨rfl, projection, happly, fun hread => ?_⟩
  rw [snapshotReadBack_eq] at hread
  have hrows := @HoldsRows.snapshot (projection.setCheckpoint (.current (some 8) 20))
  rw [GroupProjection.setCheckpoint, GroupProjection.row_withCheckpoint] at hrows
  have hshort := shortIds_of_load (GroupProjection.Named.new.applyItems happly) hrows ⟨_, hread⟩
  obtain ⟨group, hgroup⟩ := Option.isSome_iff_exists.mp hgroup
  have hrow : projection.row (.group longId) = some group.toJsonBytes := by
    rw [GroupProjection.row, hgroup]
    rfl
  exact absurd (hshort _ _ _ hrow rfl) (by decide +kernel)

end

end Tangle
