import Mathlib.Data.List.Pairwise
import Tangle.Groups.Decisions

/-!
# Events in the order they arrived

The store's events are in the order they arrived, which is the order of their offsets and says
nothing about their tuples. A group is made before its metadata is set (`Arrived`), and a group
that is there is not created again. This is enough for the three ways to come by a projection to
agree: taking one event more as it arrives (`ProjectionCovers.arrive`), a rebuild in the order of
tuples (`ProjectionReflects.of_rebuild`), and taking the events after some offset again
(`ProjectionCovers.reload`).
-/

namespace Tangle

/-- The events of a store, in the order they arrived. -/
structure Arrived (limits : GroupLimitsConfig) (events : List StoredEvent) : Prop where
  ordered : events.Pairwise fun a b => a.storeOffset < b.storeOffset
  /-- Metadata is set after some event has made the group. -/
  made : ∀ groupId, ∀ item ∈ events, SetsMetadata limits groupId item →
    ∃ maker ∈ events, MakesGroup limits groupId maker ∧ maker.storeOffset ≤ item.storeOffset

namespace Arrived

variable {limits : GroupLimitsConfig} {events : List StoredEvent} {item : StoredEvent}

/-- No event has arrived. -/
theorem nil : Arrived limits [] where
  ordered := .nil
  made _ _ h := nomatch h

/-- Offsets tell the events apart. -/
theorem eq_of_offset (h : Arrived limits events) {a b : StoredEvent} (ha : a ∈ events)
    (hb : b ∈ events) (hoffset : a.storeOffset = b.storeOffset) : a = b := by
  by_contra hne
  have hdistinct : events.Pairwise fun a b => a.storeOffset ≠ b.storeOffset :=
    h.ordered.imp fun hlt => ne_of_lt hlt
  have : Std.Symm fun a b : StoredEvent => a.storeOffset ≠ b.storeOffset := ⟨fun _ _ => Ne.symm⟩
  exact hdistinct.forall ha hb hne hoffset

/-- Events in the order of their arrival are consistent: their tuples tell them apart, and a group's
metadata is set only where some event made the group. -/
theorem consistent (h : Arrived limits events) : Consistent limits (· ∈ events) where
  told a b ha hb htuple :=
    h.eq_of_offset ha hb (congrArg ProjectionOrderTuple.storeOffset htuple)
  made groupId item hitem hsets := by
    obtain ⟨maker, hmaker, hmakes, _⟩ := h.made groupId item hitem hsets
    exact ⟨maker, hmaker, hmakes⟩

/-- One event more has arrived, which sets metadata of a group only that is there or that it
makes. -/
theorem append (h : Arrived limits events)
    (hoffset : ∀ other ∈ events, other.storeOffset < item.storeOffset)
    (hmade : ∀ groupId, SetsMetadata limits groupId item → MakesGroup limits groupId item ∨
      ∃ maker ∈ events, MakesGroup limits groupId maker) :
    Arrived limits (events ++ [item]) where
  ordered := by
    refine List.pairwise_append.mpr ⟨h.ordered, List.pairwise_singleton .., fun other hother last
      hlast => ?_⟩
    exact List.mem_singleton.mp hlast ▸ hoffset other hother
  made groupId other hother hsets := by
    rcases List.mem_append.mp hother with hother | hother
    · obtain ⟨maker, hmaker, hmakes, hle⟩ := h.made groupId other hother hsets
      exact ⟨maker, List.mem_append_left _ hmaker, hmakes, hle⟩
    · cases List.mem_singleton.mp hother
      rcases hmade groupId hsets with hmakes | ⟨maker, hmaker, hmakes⟩
      · exact ⟨item, List.mem_append_right _ hother, hmakes, le_refl _⟩
      · exact ⟨maker, List.mem_append_left _ hmaker, hmakes, le_of_lt (hoffset maker hmaker)⟩

end Arrived

/-! ## Events the projection passes over -/

/-- An event that is of no group. -/
def PassedOver (limits : GroupLimitsConfig) (item : StoredEvent) : Prop :=
  eventAction item.event limits = .ok .skip

section
variable {limits : GroupLimitsConfig} {item : StoredEvent}

/-- An event that was passed over sets no metadata. -/
theorem PassedOver.not_sets (h : PassedOver limits item) {groupId : GroupId} :
    ¬SetsMetadata limits groupId item := by
  rintro ⟨metadata, hwrite⟩
  cases (metadataWrite_of_action h).symm.trans hwrite

/-- An event that was passed over makes no group. -/
theorem PassedOver.not_makes (h : PassedOver limits item) {groupId : GroupId} :
    ¬MakesGroup limits groupId item :=
  fun hmakes => h.not_sets hmakes.setsMetadata

/-- The event writes nothing to a map. -/
theorem PassedOver.write_eq_none (h : PassedOver limits item) :
    memberField.write limits item = none ∧ tombstoneField.write limits item = none ∧
      deletionField.write limits item = none :=
  ⟨@actionWrite_of_action _ _ (fun item action => action.memberWrite item) _ _ _ h,
    @actionWrite_of_action _ _ (fun item action => action.tombstoneWrite item) _ _ _ h,
    @actionWrite_of_action _ _ (fun item action => action.deletionWrite item) _ _ _ h⟩

/-- A projection that has seen some events has seen those, too, that it passes over. -/
theorem ProjectionCovers.passOver {L₀ L₀' L L' : CanonicalGroupEvent → Prop}
    {projection : GroupProjection} (h : ProjectionCovers limits L₀ L projection)
    (h₀ : ∀ item, L₀' item → L₀ item ∨ PassedOver limits item) (hL : ∀ item, L item → L' item) :
    ProjectionCovers limits L₀' L' projection := by
  have hmore := h.mono (fun _ h => h) hL
  refine ⟨hmore.members.mono (fun k v ⟨item, hitem, hwrite⟩ => ?_) fun _ _ h => h,
    hmore.tombstones.mono (fun k v ⟨item, hitem, hwrite⟩ => ?_) fun _ _ h => h,
    hmore.eventDeletions.mono (fun k v ⟨item, hitem, hwrite⟩ => ?_) fun _ _ h => h, hmore.roles,
    fun groupId group hgroup => ?_, fun groupId item hitem hmakes => ?_⟩
  · refine ⟨item, (h₀ item hitem).resolve_right fun hskip => ?_, hwrite⟩
    cases hskip.write_eq_none.1.symm.trans hwrite
  · refine ⟨item, (h₀ item hitem).resolve_right fun hskip => ?_, hwrite⟩
    cases hskip.write_eq_none.2.1.symm.trans hwrite
  · refine ⟨item, (h₀ item hitem).resolve_right fun hskip => ?_, hwrite⟩
    cases hskip.write_eq_none.2.2.symm.trans hwrite
  · have hcovers := hmore.groups groupId group hgroup
    exact ⟨hcovers.id, hcovers.written, fun item hitem hsets => hcovers.latest item
      ((h₀ item hitem).resolve_right fun hskip => hskip.not_sets hsets) hsets, hcovers.created,
      hcovers.deleted⟩
  · exact hmore.present groupId item
      ((h₀ item hitem).resolve_right fun hskip => hskip.not_makes hmakes) hmakes

end

/-! ## Events in the order of their tuples -/

section
variable {limits : GroupLimitsConfig} {L₀ L : CanonicalGroupEvent → Prop}
  {projection projection' : GroupProjection} {items events : List StoredEvent}

/-- Sorting orders events by their tuples. -/
theorem pairwise_sortByTuple (items : List CanonicalGroupEvent) :
    (sortByTuple items).Pairwise fun a b => a.tuple ≤ b.tuple := by
  have htotal : ∀ a b : CanonicalGroupEvent, a.tuple ≤ b.tuple ∨ b.tuple ≤ a.tuple :=
    fun a b => le_total _ _
  have htrans : ∀ a b c : CanonicalGroupEvent, a.tuple ≤ b.tuple → b.tuple ≤ c.tuple →
      a.tuple ≤ c.tuple := fun _ _ _ => le_trans
  have : Std.Total fun a b : CanonicalGroupEvent => a.tuple ≤ b.tuple := ⟨htotal⟩
  have : IsTrans CanonicalGroupEvent fun a b => a.tuple ≤ b.tuple := ⟨htrans⟩
  exact List.pairwise_insertionSort _ items

/-- Events taken in the order of their tuples, on top of what the projection has seen. An event
that may make a group anew must come after the metadata the projection has seen of the group. -/
theorem ProjectionCovers.applyItems (h : ProjectionCovers limits L₀ L projection)
    (hsorted : items.Pairwise fun a b => a.tuple ≤ b.tuple)
    (hbase : ∀ groupId, ∀ item ∈ items, MakesGroup limits groupId item →
      (CreatesGroup limits groupId item ∨ ¬∃ maker, L₀ maker ∧ MakesGroup limits groupId maker) →
      ∀ other, L₀ other → SetsMetadata limits groupId other → other.tuple ≤ item.tuple)
    (happly : Tangle.applyItems limits projection items = .ok projection') :
    ProjectionCovers limits (fun item => L₀ item ∨ item ∈ items)
      (fun item => L item ∨ item ∈ items) projection' := by
  induction items generalizing L₀ L projection with
  | nil =>
    cases happly
    exact h.mono (fun item hitem => hitem.resolve_right List.not_mem_nil) fun item => .inl
  | cons item rest ih =>
    obtain ⟨next, hnext, hrest⟩ := Except.foldlM_cons_ok.mp happly
    obtain ⟨hfirst, hsorted⟩ := List.pairwise_cons.mp hsorted
    have hone := h.applyItem hnext fun groupId hmakes hfresh other hother hsets => by
      refine hbase groupId item (List.mem_cons_self ..) hmakes (hfresh.imp_right fun hnone => ?_)
        other hother hsets
      rintro ⟨maker, hmaker, hmakes⟩
      obtain ⟨group, hgroup⟩ := h.present groupId maker hmaker hmakes
      cases hnone.symm.trans hgroup
    refine (ih hone hsorted (fun groupId later hlater hmakes hfresh other hother hsets => ?_)
      hrest).mono (fun other hother => ?_) fun other hother => ?_
    · rcases hother with hother | rfl
      · refine hbase groupId later (List.mem_cons_of_mem _ hlater) hmakes
          (hfresh.imp_right fun hnone => ?_) other hother hsets
        rintro ⟨maker, hmaker, hmaker'⟩
        exact hnone ⟨maker, .inl hmaker, hmaker'⟩
      · exact hfirst later hlater
    · rw [List.mem_cons, ← or_assoc] at hother
      exact hother
    · rw [List.mem_cons, ← or_assoc]
      exact hother

/-- A rebuild has seen exactly its events. -/
theorem ProjectionReflects.of_rebuild
    (happly : Tangle.applyItems limits .new (sortByTuple items) = .ok projection') :
    ProjectionReflects limits (· ∈ items) projection' := by
  have hmem : ∀ item, item ∈ sortByTuple items ↔ item ∈ items :=
    fun item => List.mem_insertionSort _
  refine (ProjectionCovers.new.applyItems (pairwise_sortByTuple items)
    (fun _ _ _ _ _ _ h => h.elim) happly).mono (fun item hitem => ?_) fun item hitem => ?_
  · exact .inr ((hmem item).mpr hitem)
  · exact (hmem item).mp (hitem.resolve_left id)

/-- The events up to an offset; there are none when there is no offset. -/
def UpTo (lastOffset : Option StoreOffset) (item : StoredEvent) : Prop :=
  ∃ offset, lastOffset = some offset ∧ item.storeOffset ≤ offset

/-- What is stored before an event that has been read has been read. -/
theorem UpTo.of_le {lastOffset : Option StoreOffset} {item other : StoredEvent}
    (h : UpTo lastOffset item) (hle : other.storeOffset ≤ item.storeOffset) :
    UpTo lastOffset other := by
  obtain ⟨offset, hoffset, hitem⟩ := h
  exact ⟨offset, hoffset, le_trans hle hitem⟩

/-- **Taking the events after an offset again.** A projection that has seen the events up to an
offset, and perhaps some after it, has seen them all once those after it are taken in the order of
their tuples. -/
theorem ProjectionCovers.reload (harrived : Arrived limits events) {lastOffset : Option StoreOffset}
    (hcreated : ∀ groupId, ∀ item ∈ events, CreatesGroup limits groupId item →
      ¬UpTo lastOffset item → ∀ other ∈ events, SetsMetadata limits groupId other →
        ¬UpTo lastOffset other)
    (h : ProjectionCovers limits (fun item => item ∈ events ∧ UpTo lastOffset item) (· ∈ events)
      projection)
    (hitems : ∀ item, item ∈ items → item ∈ events ∧ ¬UpTo lastOffset item)
    (hall : ∀ item ∈ events, ¬UpTo lastOffset item → item ∈ items ∨ PassedOver limits item)
    (happly : Tangle.applyItems limits projection (sortByTuple items) = .ok projection') :
    ProjectionReflects limits (· ∈ events) projection' := by
  have hmem : ∀ item, item ∈ sortByTuple items ↔ item ∈ items :=
    fun item => List.mem_insertionSort _
  -- metadata that was set up to the offset is of a group that was made up to it
  have hbase : ∀ groupId, ∀ item ∈ sortByTuple items, MakesGroup limits groupId item →
      (CreatesGroup limits groupId item ∨ ¬∃ maker, (maker ∈ events ∧ UpTo lastOffset maker) ∧
        MakesGroup limits groupId maker) →
      ∀ other, other ∈ events ∧ UpTo lastOffset other → SetsMetadata limits groupId other →
        other.tuple ≤ item.tuple := by
    intro groupId item hitem _ hfresh other ⟨hother, hupTo⟩ hsets
    obtain ⟨hevent, hafter⟩ := hitems item ((hmem item).mp hitem)
    rcases hfresh with hcreates | hnone
    · exact absurd hupTo (hcreated groupId item hevent hcreates hafter other hother hsets)
    · obtain ⟨maker, hmaker, hmakes, hle⟩ := harrived.made groupId other hother hsets
      exact absurd ⟨maker, ⟨hmaker, hupTo.of_le hle⟩, hmakes⟩ hnone
  have hcovers := h.applyItems (pairwise_sortByTuple items) hbase happly
  have hwithin := hcovers.mono (fun _ h => h) fun item hitem =>
    (hitem.elim id fun hitem => (hitems item ((hmem item).mp hitem)).1 : item ∈ events)
  refine hwithin.passOver (fun item hitem => ?_) fun _ h => h
  by_cases hupTo : UpTo lastOffset item
  · exact .inl (.inl ⟨hitem, hupTo⟩)
  · exact (hall item hitem hupTo).imp_left fun hitem => .inr ((hmem item).mpr hitem)

/-- **One event more as it arrives.** The projection has seen what made the groups whose metadata it
has seen set, and a group that is there is not created. -/
theorem ProjectionCovers.arrive {item : StoredEvent} (h : ProjectionCovers limits L₀ L projection)
    (hmade : ∀ groupId item, L₀ item → SetsMetadata limits groupId item →
      ∃ maker, L₀ maker ∧ MakesGroup limits groupId maker)
    (hcreated : ∀ groupId, CreatesGroup limits groupId item → projection.group groupId = none)
    (happly : Tangle.applyItem limits projection item = .ok projection') :
    ProjectionCovers limits (fun other => L₀ other ∨ other = item)
      (fun other => L other ∨ other = item) projection' :=
  h.applyItem happly fun groupId _ hfresh other hother hsets => by
    have hnone : projection.group groupId = none := hfresh.elim (hcreated groupId) id
    obtain ⟨maker, hmaker, hmakes⟩ := hmade groupId other hother hsets
    obtain ⟨group, hgroup⟩ := h.present groupId maker hmaker hmakes
    cases hnone.symm.trans hgroup

end

end Tangle
