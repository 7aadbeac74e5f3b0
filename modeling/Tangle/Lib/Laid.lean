import Mathlib.Data.List.Basic
import Mathlib.Order.Nat

/-!
# Items laid out one after another

A log that is appended to holds its items one after another: each has a place, and where it ends
tells where the next one goes. `Laid place next start items` says so of a list of items. Laid items
stand in the order of their places (`Laid.pairwise`), and those behind an item are those of greater
place (`Laid.filter_lt`).
-/

namespace Tangle

variable {α : Type}

/-- The first item lies at the start, each other where the one before it tells. -/
inductive Laid (place next : α → Nat) : Nat → List α → Prop
  | nil {start : Nat} : Laid place next start []
  | cons {start : Nat} {a : α} {rest : List α} : place a = start → Laid place next (next a) rest →
      Laid place next start (a :: rest)

/-- Where the next item goes. -/
def frontier (next : α → Nat) (start : Nat) (items : List α) : Nat :=
  items.getLast?.elim start next

variable {place next : α → Nat} {start : Nat} {items before after rest : List α} {a : α}

@[simp] theorem frontier_nil : frontier next start [] = start := rfl

@[simp] theorem frontier_concat : frontier next start (items ++ [a]) = next a := by
  simp [frontier]

theorem frontier_cons : frontier next start (a :: rest) = frontier next (next a) rest := by
  cases rest with
  | nil => rfl
  | cons b rest =>
    have hlast : (b :: rest).getLast? = some ((b :: rest).getLast (List.cons_ne_nil b rest)) :=
      List.getLast?_eq_some_getLast _
    rw [frontier, frontier, List.getLast?_cons_cons, hlast]
    rfl

/-- The items that follow go on from where those before them tell. -/
theorem frontier_append : frontier next start (before ++ after) =
    frontier next (frontier next start before) after := by
  induction before generalizing start with
  | nil => rfl
  | cons b before ih => rw [List.cons_append, frontier_cons, frontier_cons, ih]

namespace Laid

/-- What is laid out in two parts: the second starts where the first tells. -/
theorem append_iff : Laid place next start (before ++ after) ↔
    Laid place next start before ∧ Laid place next (frontier next start before) after := by
  induction before generalizing start with
  | nil => exact ⟨fun h => ⟨.nil, h⟩, fun h => h.2⟩
  | cons b before ih =>
    rw [List.cons_append, frontier_cons]
    refine ⟨fun h => ?_, fun ⟨h, hafter⟩ => ?_⟩
    · cases h with
      | cons hplace hrest =>
        obtain ⟨hbefore, hafter⟩ := ih.mp hrest
        exact ⟨.cons hplace hbefore, hafter⟩
    · cases h with
      | cons hplace hbefore => exact .cons hplace (ih.mpr ⟨hbefore, hafter⟩)

/-- An item more, at the frontier. -/
theorem concat (h : Laid place next start items) (hplace : place a = frontier next start items) :
    Laid place next start (items ++ [a]) :=
  append_iff.mpr ⟨h, .cons hplace .nil⟩

section
variable (hnext : ∀ a, place a < next a)
include hnext

/-- No item lies before the start. -/
theorem le_place (h : Laid place next start items) : ∀ a ∈ items, start ≤ place a := by
  induction h with
  | nil => exact fun _ ha => (nomatch ha)
  | @cons start b rest hplace _ ih =>
    intro a ha
    rcases List.mem_cons.mp ha with rfl | ha
    · exact hplace.ge
    · have hb := hnext b
      have hrest := ih a ha
      omega

/-- Laid items stand in the order of their places. -/
theorem pairwise (h : Laid place next start items) :
    items.Pairwise fun a b => place a < place b := by
  induction h with
  | nil => exact .nil
  | @cons start b rest _ hrest ih =>
    exact .cons (fun a ha => lt_of_lt_of_le (hnext b) (hrest.le_place hnext a ha)) ih

/-- The items of greater place than an item are those behind it. -/
theorem filter_lt (h : Laid place next start (before ++ a :: after)) :
    (before ++ a :: after).filter (fun b => place a < place b) = after := by
  obtain ⟨_, hrest, hacross⟩ := List.pairwise_append.mp (h.pairwise hnext)
  have hbefore : before.filter (fun b => place a < place b) = [] := by
    refine List.filter_eq_nil_iff.mpr fun b hb => ?_
    have hlt := hacross b hb a (List.mem_cons_self ..)
    simp only [decide_eq_true_eq]
    omega
  have hafter : after.filter (fun b => place a < place b) = after := by
    refine List.filter_eq_self.mpr fun b hb => ?_
    exact decide_eq_true ((List.pairwise_cons.mp hrest).1 b hb)
  rw [List.filter_append, hbefore, List.filter_cons, hafter]
  simp

/-- The frontier lies behind every item. -/
theorem lt_frontier (h : Laid place next start items) :
    ∀ a ∈ items, place a < frontier next start items := by
  induction h with
  | nil => exact fun _ ha => (nomatch ha)
  | @cons start b rest _ hrest ih =>
    intro a ha
    rw [frontier_cons]
    rcases List.mem_cons.mp ha with rfl | ha
    · cases rest with
      | nil => exact hnext a
      | cons c rest =>
        have hc := hrest.le_place hnext c (List.mem_cons_self ..)
        have hlast := ih c (List.mem_cons_self ..)
        have hfirst := hnext a
        omega
    · exact ih a ha

end

end Laid

end Tangle
