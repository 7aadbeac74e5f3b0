import Tangle.Session.EventLimits

/-!
# Wider requests

A request is broad when one of its filters is. A filter that is widened keeps what makes it broad,
with two exceptions. A window that is too long is no longer looked at once one of its ends is taken
away (`OpensWindow`): the widest window of all is not a broad one. And which filters can be counted
by sketch is for Pocket to say, so a filter may become one that can.

The theorem at the end says for a single step exactly when a broad request becomes one that is not.
-/

namespace Tangle

namespace BaseRelayRequestLimits

variable {limits : BaseRelayRequestLimits}
  {hyperloglogOffset : PocketFilter → Except String (Option Nat)}
  {filter filter' : PocketFilter} {before after : List PocketFilter}

/-! ## Widening a filter -/

/-- The second filter asks for at least what the first does: constraints have been dropped, the
window has been extended and the limit raised. -/
structure Widens (limits : BaseRelayRequestLimits) (filter filter' : PocketFilter) : Prop where
  ids : filter'.ids = filter.ids ∨ filter'.ids = []
  authors : filter'.authors = filter.authors ∨ filter'.authors = []
  kinds : filter'.kinds = filter.kinds ∨ filter'.kinds = []
  tags : filter'.tags.Sublist filter.tags
  since_le : filter'.since ≤ filter.since
  le_until : filter.until ≤ filter'.until
  until_le : filter'.until ≤ PocketTime.max
  limit : limits.effectivePocketFilterLimit filter ≤ limits.effectivePocketFilterLimit filter'

/-- A filter of a query with a primary constraint, no high limit, and no window that is too long
unless it has a strong constraint, too. -/
def NarrowQuery (limits : BaseRelayRequestLimits) (filter : PocketFilter) : Prop :=
  hasPocketPrimaryConstraint filter = true ∧ limits.hasPocketHighLimit filter = false ∧
    (hasPocketBroadTimeWindow filter = false ∨ hasPocketStrongConstraint filter = true)

/-- A filter of a count with a primary constraint, no high limit, no window that is too long, and a
selector. -/
def NarrowCount (limits : BaseRelayRequestLimits)
    (hyperloglogOffset : PocketFilter → Except String (Option Nat))
    (filter : PocketFilter) : Prop :=
  hasPocketPrimaryConstraint filter = true ∧ limits.hasPocketHighLimit filter = false ∧
    hasPocketBroadTimeWindow filter = false ∧
    hasPocketCountBoundedSelector hyperloglogOffset filter = true

/-- The filter has a window that is too long, and the wider one has it no more, for lack of an
end. -/
def OpensWindow (filter filter' : PocketFilter) : Prop :=
  hasPocketBroadTimeWindow filter = true ∧
    (filter'.since = PocketTime.min ∨ filter'.until = PocketTime.max)

/-- A filter that constrains nothing but kinds and a window that is too long, widened by taking an
end of the window away. -/
def EvadesQuery (limits : BaseRelayRequestLimits) (filter filter' : PocketFilter) : Prop :=
  OpensWindow filter filter' ∧ hasPocketStrongConstraint filter = false ∧ filter'.kinds ≠ [] ∧
    limits.hasPocketHighLimit filter' = false

/-- A filter with a window that is too long, widened by taking an end of the window away; or one
that has no selector a count needs, widened to one that is counted by sketch. -/
def EvadesCount (limits : BaseRelayRequestLimits)
    (hyperloglogOffset : PocketFilter → Except String (Option Nat))
    (filter filter' : PocketFilter) : Prop :=
  hasPocketPrimaryConstraint filter' = true ∧ limits.hasPocketHighLimit filter' = false ∧
    (OpensWindow filter filter' ∧
        (hasPocketStrongConstraint filter' = true ∨
          hasPocketHllCountSelector hyperloglogOffset filter' = true) ∨
      hasPocketBroadTimeWindow filter = false ∧
        hasPocketCountBoundedSelector hyperloglogOffset filter = false ∧
        hasPocketBroadTimeWindow filter' = false ∧
        hasPocketHllCountSelector hyperloglogOffset filter' = true)

/-- A list that was dropped or kept is empty if it was. -/
theorem isEmpty_of_dropped {α : Type} {values values' : List α}
    (h : values' = values ∨ values' = []) (hempty : values.isEmpty = true) :
    values'.isEmpty = true := by
  rcases h with rfl | rfl
  · exact hempty
  · rfl

/-- A window that is extended is no shorter. -/
theorem window_longer {since since' last last' seconds : Nat} (hsince : since' ≤ since)
    (hlast : last ≤ last') (hlong : seconds < last - since) : seconds < last' - since' := by
  omega

namespace Widens

/-- Widening a filter gives it no constraint that it lacked. -/
theorem strong (h : limits.Widens filter filter')
    (hstrong : hasPocketStrongConstraint filter = false) :
    hasPocketStrongConstraint filter' = false := by
  simp only [hasPocketStrongConstraint, hasPocketGroupConstraint, Bool.or_eq_false_iff,
    Bool.not_eq_false', List.any_eq_false] at hstrong ⊢
  obtain ⟨⟨hids, hauthors⟩, hgroup⟩ := hstrong
  have hids' := isEmpty_of_dropped h.ids hids
  have hauthors' := isEmpty_of_dropped h.authors hauthors
  exact ⟨⟨hids', hauthors'⟩, fun tag htag => hgroup tag (h.tags.subset htag)⟩

/-- Widening a filter gives it no kinds where it had none. -/
theorem kinds_isEmpty (h : limits.Widens filter filter') (hkinds : filter.kinds.isEmpty = true) :
    filter'.kinds.isEmpty = true :=
  isEmpty_of_dropped h.kinds hkinds

/-- Widening a filter whose limit is the largest leaves it so. -/
theorem highLimit (h : limits.Widens filter filter')
    (hhigh : limits.hasPocketHighLimit filter = true) :
    limits.hasPocketHighLimit filter' = true := by
  have hlimit := h.limit
  simp only [hasPocketHighLimit, decide_eq_true_eq] at hhigh ⊢
  omega

/-- A window that is too long stays so while it has both ends. -/
theorem broadWindow (h : limits.Widens filter filter')
    (hbroad : hasPocketBroadTimeWindow filter = true) :
    hasPocketBroadTimeWindow filter' = false ↔ OpensWindow filter filter' := by
  simp only [OpensWindow, hbroad, true_and]
  simp only [hasPocketBroadTimeWindow, decide_eq_true_eq, decide_eq_false_iff_not] at hbroad ⊢
  obtain ⟨_, _, hlong⟩ := hbroad
  have hlong' := window_longer h.since_le h.le_until hlong
  simp only [hlong', and_true, not_and_or, not_not, ne_eq]

/-- A window of the wider filter that is short enough was one of the filter. -/
theorem boundedWindow (h : limits.Widens filter filter')
    (hbounded : hasPocketBoundedTimeWindow filter' = true) :
    hasPocketBoundedTimeWindow filter = true := by
  simp only [hasPocketBoundedTimeWindow, decide_eq_true_eq] at hbounded ⊢
  obtain ⟨hsince, huntil, hshort⟩ := hbounded
  refine ⟨fun hmin => ?_, fun hmax => ?_, ?_⟩
  · have hle := h.since_le
    rw [hmin] at hle
    exact hsince (Nat.le_zero.mp hle)
  · have hle := h.le_until
    rw [hmax] at hle
    exact huntil (Nat.le_antisymm h.until_le hle)
  · by_contra hlong
    have hlong := window_longer h.since_le h.le_until (Nat.lt_of_not_le hlong)
    exact Nat.not_lt_of_le hshort hlong

end Widens

/-- A window is not both short enough and too long. -/
theorem broadWindow_of_boundedWindow (h : hasPocketBoundedTimeWindow filter = true) :
    hasPocketBroadTimeWindow filter = false := by
  simp only [hasPocketBoundedTimeWindow, hasPocketBroadTimeWindow, decide_eq_true_eq,
    decide_eq_false_iff_not] at h ⊢
  obtain ⟨_, _, hshort⟩ := h
  exact fun ⟨_, _, hlong⟩ => Nat.not_lt_of_le hshort hlong

/-- A filter is constrained at all exactly when it is strongly, or names kinds. -/
theorem primaryConstraint_eq : hasPocketPrimaryConstraint filter =
    (hasPocketStrongConstraint filter || !filter.kinds.isEmpty) := by
  simp only [hasPocketPrimaryConstraint, hasPocketStrongConstraint]
  cases filter.ids.isEmpty <;> cases filter.authors.isEmpty <;> cases filter.kinds.isEmpty <;>
    simp

/-! ## Broad filters -/

/-- A filter of a query is broad exactly when it is not narrow. -/
theorem query_bounded_iff : (limits.classifyPocketQueryFilter filter).isBroad = false ↔
    limits.NarrowQuery filter := by
  unfold classifyPocketQueryFilter NarrowQuery
  cases hasPocketPrimaryConstraint filter <;> cases limits.hasPocketHighLimit filter <;>
    cases hasPocketBroadTimeWindow filter <;> cases hasPocketStrongConstraint filter <;>
    simp [TangleQueryClassification.isBroad]

/-- A filter of a count is broad exactly when it is not narrow. -/
theorem count_bounded_iff :
    (limits.classifyPocketCountFilter hyperloglogOffset filter).isBroad = false ↔
      limits.NarrowCount hyperloglogOffset filter := by
  unfold classifyPocketCountFilter NarrowCount
  cases hasPocketPrimaryConstraint filter <;> cases limits.hasPocketHighLimit filter <;>
    cases hasPocketBroadTimeWindow filter <;>
    cases hasPocketCountBoundedSelector hyperloglogOffset filter <;>
    simp [TangleQueryClassification.isBroad]

namespace Widens

/-- A filter that is widened to one that has a primary constraint and no high limit has itself a
primary constraint and no high limit. -/
theorem primary_and_not_high (h : limits.Widens filter filter')
    (hprimary : hasPocketPrimaryConstraint filter' = true)
    (hhigh : limits.hasPocketHighLimit filter' = false) :
    hasPocketPrimaryConstraint filter = true ∧ limits.hasPocketHighLimit filter = false := by
  rw [primaryConstraint_eq] at hprimary ⊢
  constructor
  · cases hstrong : hasPocketStrongConstraint filter with
    | true => simp
    | false =>
      cases hkinds : filter.kinds.isEmpty with
      | false => simp
      | true => simp [h.strong hstrong, h.kinds_isEmpty hkinds] at hprimary
  · cases hlimit : limits.hasPocketHighLimit filter with
    | false => rfl
    | true => simp [h.highLimit hlimit] at hhigh

/-- A selector of the wider filter is a sketch, or a strong constraint, or was one of the filter. -/
theorem selector (h : limits.Widens filter filter')
    (hselector : hasPocketCountBoundedSelector hyperloglogOffset filter' = true) :
    hasPocketHllCountSelector hyperloglogOffset filter' = true ∨
      hasPocketStrongConstraint filter' = true ∨
      hasPocketBoundedTimeWindow filter = true ∧ filter.kinds.isEmpty = false := by
  simp only [hasPocketCountBoundedSelector, Bool.or_eq_true, Bool.and_eq_true,
    Bool.not_eq_true'] at hselector
  rcases hselector with (hstrong | ⟨hkinds', hbounded⟩) | hsketch
  · exact .inr (.inl hstrong)
  · refine .inr (.inr ⟨h.boundedWindow hbounded, ?_⟩)
    cases hkinds : filter.kinds.isEmpty with
    | false => rfl
    | true => simp [h.kinds_isEmpty hkinds] at hkinds'
  · exact .inl hsketch

end Widens

/-- Of the widenings, exactly those that take an end of a window away make a broad query filter
one that is not. -/
theorem evadesQuery_iff (h : limits.Widens filter filter') :
    (limits.classifyPocketQueryFilter filter).isBroad = true ∧
        (limits.classifyPocketQueryFilter filter').isBroad = false ↔
      limits.EvadesQuery filter filter' := by
  rw [← Bool.not_eq_false, query_bounded_iff, query_bounded_iff]
  constructor
  · rintro ⟨hbroad, hprimary', hhigh', hwindow'⟩
    obtain ⟨hprimary, hhigh⟩ := h.primary_and_not_high hprimary' hhigh'
    have hneither : ¬(hasPocketBroadTimeWindow filter = false ∨
        hasPocketStrongConstraint filter = true) := fun hor => hbroad ⟨hprimary, hhigh, hor⟩
    simp only [not_or, Bool.not_eq_false, Bool.not_eq_true] at hneither
    obtain ⟨hwindow, hweak⟩ := hneither
    have hweak' := h.strong hweak
    rw [hweak', or_iff_left Bool.false_ne_true] at hwindow'
    have hopens := (h.broadWindow hwindow).mp hwindow'
    refine ⟨hopens, hweak, fun hnil => ?_, hhigh'⟩
    simp [primaryConstraint_eq, hweak', hnil] at hprimary'
  · rintro ⟨hopens, hweak, hkinds', hhigh'⟩
    have hwindow' := (h.broadWindow hopens.1).mpr hopens
    refine ⟨fun ⟨_, _, hnot⟩ => ?_, ?_, hhigh', .inl hwindow'⟩
    · simp [hopens.1, hweak] at hnot
    · simp [primaryConstraint_eq, hkinds']

/-- Of the widenings, exactly these make a broad filter of a count one that is not. -/
theorem evadesCount_iff (h : limits.Widens filter filter') :
    (limits.classifyPocketCountFilter hyperloglogOffset filter).isBroad = true ∧
        (limits.classifyPocketCountFilter hyperloglogOffset filter').isBroad = false ↔
      limits.EvadesCount hyperloglogOffset filter filter' := by
  rw [← Bool.not_eq_false, count_bounded_iff, count_bounded_iff]
  constructor
  · rintro ⟨hbroad, hprimary', hhigh', hwindow', hselector'⟩
    obtain ⟨hprimary, hhigh⟩ := h.primary_and_not_high hprimary' hhigh'
    refine ⟨hprimary', hhigh', ?_⟩
    cases hwindow : hasPocketBroadTimeWindow filter with
    | true =>
      refine .inl ⟨(h.broadWindow hwindow).mp hwindow', ?_⟩
      rcases h.selector hselector' with hsketch | hstrong | ⟨hbounded, _⟩
      · exact .inr hsketch
      · exact .inl hstrong
      · rw [broadWindow_of_boundedWindow hbounded] at hwindow
        cases hwindow
    | false =>
      have hnone : hasPocketCountBoundedSelector hyperloglogOffset filter = false := by
        by_contra hsome
        exact hbroad ⟨hprimary, hhigh, hwindow, Bool.not_eq_false _ ▸ hsome⟩
      have hparts := hnone
      simp only [hasPocketCountBoundedSelector, Bool.or_eq_false_iff] at hparts
      obtain ⟨⟨hweak, hplain⟩, _⟩ := hparts
      refine .inr ⟨rfl, hnone, hwindow', ?_⟩
      rcases h.selector hselector' with hsketch | hstrong | ⟨hbounded, hkinds⟩
      · exact hsketch
      · simp [h.strong hweak] at hstrong
      · simp [hbounded, hkinds] at hplain
  · rintro ⟨hprimary', hhigh', ⟨hopens, hselector'⟩ | ⟨hwindow, hnone, hwindow', hsketch⟩⟩
    · refine ⟨fun ⟨_, _, hnot, _⟩ => ?_, hprimary', hhigh', (h.broadWindow hopens.1).mpr hopens, ?_⟩
      · simp [hopens.1] at hnot
      · rcases hselector' with hstrong | hsketch
        · simp [hasPocketCountBoundedSelector, hstrong]
        · simp [hasPocketCountBoundedSelector, hsketch]
    · refine ⟨fun ⟨_, _, _, hsome⟩ => ?_, hprimary', hhigh', hwindow', ?_⟩
      · simp [hnone] at hsome
      · simp [hasPocketCountBoundedSelector, hsketch]

/-! ## Broad requests -/

section
variable {classify : PocketFilter → TangleQueryClassification}

/-- The class of a request by those of its filters. -/
def classifyFilters (classify : PocketFilter → TangleQueryClassification)
    (filters : List PocketFilter) : TangleQueryClassification :=
  if filters.isEmpty then
    .broad .emptyFilters
  else
    ((filters.map classify).find? TangleQueryClassification.isBroad).getD .bounded

/-- A request is not broad exactly when it has filters and none of them is. -/
theorem isBroad_classifyFilters_eq_false {filters : List PocketFilter} :
    (classifyFilters classify filters).isBroad = false ↔
      filters ≠ [] ∧ ∀ filter ∈ filters, (classify filter).isBroad = false := by
  unfold classifyFilters
  cases filters with
  | nil => simp [TangleQueryClassification.isBroad]
  | cons filter rest =>
    rw [if_neg (by simp)]
    cases hfind : ((filter :: rest).map classify).find? TangleQueryClassification.isBroad with
    | none =>
      have hall := List.find?_eq_none.mp hfind
      simp only [Option.getD_none, TangleQueryClassification.isBroad, ne_eq, reduceCtorEq,
        not_false_eq_true, true_and, true_iff]
      intro other hother
      exact Bool.not_eq_true _ ▸ hall _ (List.mem_map_of_mem hother)
    | some found =>
      have hbroad := List.find?_some hfind
      obtain ⟨other, hother, rfl⟩ := List.mem_map.mp (List.mem_of_find?_eq_some hfind)
      simp only [Option.getD_some, hbroad, Bool.true_eq_false, false_iff, not_and]
      intro _ hall
      exact Bool.false_ne_true ((hall other hother).symm.trans hbroad)

/-- A broad request becomes one that is not by a further filter exactly when it had none, and that
one is not broad. -/
theorem classifyFilters_add_iff :
    ((classifyFilters classify (before ++ after)).isBroad = true →
        (classifyFilters classify (before ++ filter :: after)).isBroad = true) ↔
      ¬(before ++ after = [] ∧ (classify filter).isBroad = false) := by
  rw [← not_iff_not, not_not, Classical.not_imp, Bool.not_eq_true, ← Bool.not_eq_false,
    isBroad_classifyFilters_eq_false, isBroad_classifyFilters_eq_false]
  constructor
  · rintro ⟨hbroad, _, hall⟩
    refine ⟨?_, hall filter (by simp)⟩
    by_contra hne
    refine hbroad ⟨hne, fun other hother => hall other ?_⟩
    rw [List.mem_append] at hother
    rw [List.mem_append, List.mem_cons]
    tauto
  · rintro ⟨hnil, hfilter⟩
    obtain ⟨rfl, rfl⟩ := List.append_eq_nil_iff.mp hnil
    refine ⟨fun h => h.1 rfl, by simp, fun other hother => ?_⟩
    cases List.mem_singleton.mp hother
    exact hfilter

/-- A broad request becomes one that is not by the change of a filter exactly when that filter was
the only broad one and is broad no more. -/
theorem classifyFilters_change_iff :
    ((classifyFilters classify (before ++ filter :: after)).isBroad = true →
        (classifyFilters classify (before ++ filter' :: after)).isBroad = true) ↔
      ¬((∀ other ∈ before ++ after, (classify other).isBroad = false) ∧
        (classify filter).isBroad = true ∧ (classify filter').isBroad = false) := by
  rw [← not_iff_not, not_not, Classical.not_imp, Bool.not_eq_true, ← Bool.not_eq_false,
    isBroad_classifyFilters_eq_false, isBroad_classifyFilters_eq_false]
  have hmem : ∀ one other, other ∈ before ++ one :: after ↔ other = one ∨
      other ∈ before ++ after := by
    intro one other
    simp only [List.mem_append, List.mem_cons]
    tauto
  simp only [hmem, forall_eq_or_imp, ne_eq, List.append_eq_nil_iff, reduceCtorEq, and_false,
    not_false_eq_true, true_and, not_and]
  constructor
  · rintro ⟨hbroad, hfilter', hothers⟩
    refine ⟨hothers, ?_, hfilter'⟩
    by_contra hfilter
    exact hbroad (Bool.not_eq_true _ ▸ hfilter) hothers
  · rintro ⟨hothers, hfilter, hfilter'⟩
    refine ⟨fun hnot => ?_, hfilter', hothers⟩
    simp [hfilter] at hnot

end

end BaseRelayRequestLimits

/-- **When a wider request is cheaper.** A broad request becomes one that is not by a further filter
only when it had no filter at all, and by a wider filter only when the other filters are narrow and
the change takes an end of a window away that is too long, or makes the filter one that Pocket
counts by sketch. -/
theorem widening_never_cheaper_iff (limits : BaseRelayRequestLimits)
    (hyperloglogOffset : PocketFilter → Except String (Option Nat))
    (before after : List PocketFilter) (filter : PocketFilter) :
    (((limits.classifyPocketQuery (before ++ after)).isBroad = true →
        (limits.classifyPocketQuery (before ++ filter :: after)).isBroad = true) ↔
      ¬(before ++ after = [] ∧ limits.NarrowQuery filter)) ∧
    (((limits.classifyPocketCount hyperloglogOffset (before ++ after)).isBroad = true →
        (limits.classifyPocketCount hyperloglogOffset (before ++ filter :: after)).isBroad = true) ↔
      ¬(before ++ after = [] ∧ limits.NarrowCount hyperloglogOffset filter)) ∧
    ∀ filter', limits.Widens filter filter' →
      (((limits.classifyPocketQuery (before ++ filter :: after)).isBroad = true →
          (limits.classifyPocketQuery (before ++ filter' :: after)).isBroad = true) ↔
        ¬((∀ other ∈ before ++ after, limits.NarrowQuery other) ∧
          limits.EvadesQuery filter filter')) ∧
      (((limits.classifyPocketCount hyperloglogOffset (before ++ filter :: after)).isBroad = true →
          (limits.classifyPocketCount hyperloglogOffset (before ++ filter' :: after)).isBroad =
            true) ↔
        ¬((∀ other ∈ before ++ after, limits.NarrowCount hyperloglogOffset other) ∧
          limits.EvadesCount hyperloglogOffset filter filter')) := by
  simp only [← BaseRelayRequestLimits.query_bounded_iff,
    ← @BaseRelayRequestLimits.count_bounded_iff limits hyperloglogOffset]
  refine ⟨BaseRelayRequestLimits.classifyFilters_add_iff,
    BaseRelayRequestLimits.classifyFilters_add_iff, fun filter' h => ⟨?_, ?_⟩⟩
  · rw [← BaseRelayRequestLimits.evadesQuery_iff h]
    exact BaseRelayRequestLimits.classifyFilters_change_iff
  · rw [← BaseRelayRequestLimits.evadesCount_iff h]
    exact BaseRelayRequestLimits.classifyFilters_change_iff

namespace Sample

/-- Notes of a little more than 31 days. -/
def longWindow : PocketFilter where
  ids := []
  authors := []
  kinds := [1]
  tags := []
  since := 1
  «until» := broadQueryTimeWindowSeconds + 2
  limit := 1

/-- The same without an end. -/
def openWindow : PocketFilter :=
  { longWindow with «until» := PocketTime.max }

/-- The notes of a group of a little more than 31 days. -/
def longGroupWindow : PocketFilter :=
  { longWindow with tags := [[.text "h".toList, .text "farm".toList]] }

/-- A group's events from some time on, with the window's end left open. -/
def openGroupWindow : PocketFilter :=
  { longGroupWindow with «until» := PocketTime.max }

/-- Limits for the samples. -/
def requestLimits : BaseRelayRequestLimits :=
  ⟨64, 10, 100, 10000, 500, 100⟩

/-- No filter can be answered with a sketch. -/
def noSketch : PocketFilter → Except String (Option Nat) :=
  fun _ => .ok none

end Sample

section
open Sample

/-- Opening the end of a window widens the filter. -/
theorem widens_openWindow : requestLimits.Widens longWindow openWindow :=
  ⟨.inl rfl, .inl rfl, .inl rfl, .refl _, le_rfl, by decide, le_rfl, le_rfl⟩

/-- The theorem at a long window whose end is opened: the query is broad before and is not
afterwards. -/
theorem widening_never_cheaper_iff_openWindow :
    requestLimits.Widens longWindow openWindow ∧
      ¬((requestLimits.classifyPocketQuery [longWindow]).isBroad = true →
        (requestLimits.classifyPocketQuery [openWindow]).isBroad = true) := by
  refine ⟨widens_openWindow, ?_⟩
  obtain ⟨_, _, hwiden⟩ := widening_never_cheaper_iff requestLimits noSketch [] [] longWindow
  obtain ⟨hquery, _⟩ := hwiden openWindow widens_openWindow
  have hevades : requestLimits.EvadesQuery longWindow openWindow :=
    ⟨⟨by decide, .inr rfl⟩, by decide, by decide, by decide⟩
  exact fun hmono => hquery.mp hmono ⟨fun _ h => (nomatch h), hevades⟩

/-- A query and a count whose window is longer than the bound are broad. Without the end of the
window neither is: a window that is open at one end is not looked at. -/
theorem open_window_is_cheaper :
    requestLimits.Widens longWindow openWindow ∧
      (requestLimits.classifyPocketQuery [longWindow]).isBroad = true ∧
      (requestLimits.classifyPocketQuery [openWindow]).isBroad = false ∧
      requestLimits.Widens longGroupWindow openGroupWindow ∧
      (requestLimits.classifyPocketCount noSketch [longGroupWindow]).isBroad = true ∧
      (requestLimits.classifyPocketCount noSketch [openGroupWindow]).isBroad = false := by
  have hgroup : requestLimits.Widens longGroupWindow openGroupWindow :=
    ⟨.inl rfl, .inl rfl, .inl rfl, .refl _, le_rfl, by decide, le_rfl, le_rfl⟩
  exact ⟨widens_openWindow, by decide, by decide, hgroup, by decide, by decide⟩

end

end Tangle
