import Mathlib.Data.List.Basic
import Mathlib.Data.List.Infix
import Mathlib.Tactic.ByContra

/-!
# Parts of lists

A list is taken apart at the first place of a pattern (`splitOnce`) or at the last place of a
separator (`rsplitOnce`). `replaceAll` puts another list wherever a pattern stands, from the left
and without overlaps: the parts in between, which hold no pattern, stay as they are
(`exists_parts_replaceAll`). What holds no separator lies in one of the parts (`infix_append_cons`).
-/

namespace Tangle

section
variable {α : Type} [DecidableEq α]

/-! ## Splits -/

/-- What stands before and after the first place of a pattern. -/
def splitOnce (pattern : List α) : List α → Option (List α × List α)
  | [] => if pattern = [] then some ([], []) else none
  | value :: rest =>
    if pattern <+: value :: rest then
      some ([], (value :: rest).drop pattern.length)
    else
      (splitOnce pattern rest).map fun parts => (value :: parts.1, parts.2)

/-- What stands before and after the last place of a separator. -/
def rsplitOnce (separator : α) : List α → Option (List α × List α)
  | [] => none
  | value :: rest =>
    match rsplitOnce separator rest with
    | some parts => some (value :: parts.1, parts.2)
    | none => if value = separator then some ([], rest) else none

variable {pattern replacement values before after : List α} {separator : α}

theorem eq_of_splitOnce (h : splitOnce pattern values = some (before, after)) :
    values = before ++ pattern ++ after := by
  induction values generalizing before with
  | nil =>
    unfold splitOnce at h
    split at h
    · next hempty =>
      cases h
      rw [hempty]
      rfl
    · cases h
  | cons value rest ih =>
    unfold splitOnce at h
    split at h
    · next hfirst =>
      cases h
      exact (List.prefix_iff_eq_append.mp hfirst).symm
    · obtain ⟨⟨first, last⟩, hrest, hparts⟩ := Option.map_eq_some_iff.mp h
      cases hparts
      rw [ih hrest]
      rfl

theorem splitOnce_eq_none : splitOnce pattern values = none ↔ ¬ pattern <:+: values := by
  induction values with
  | nil =>
    rw [splitOnce, List.infix_nil]
    split
    · next hempty => simp [hempty]
    · next hne => simp [hne]
  | cons value rest ih =>
    rw [splitOnce, List.infix_cons_iff]
    split
    · next hfirst => simp [hfirst]
    · next hnot => simp [hnot, ih]

/-- Before the first place there is no other. -/
theorem not_infix_of_splitOnce (hne : pattern ≠ [])
    (h : splitOnce pattern values = some (before, after)) : ¬ pattern <:+: before := by
  induction values generalizing before with
  | nil =>
    rw [splitOnce, if_neg hne] at h
    cases h
  | cons value rest ih =>
    have hvalues := eq_of_splitOnce h
    unfold splitOnce at h
    split at h
    · cases h
      rw [List.infix_nil]
      exact hne
    · next hnot =>
      obtain ⟨⟨first, last⟩, hrest, hparts⟩ := Option.map_eq_some_iff.mp h
      cases hparts
      rw [List.infix_cons_iff]
      rintro (hfirst | hlater)
      · refine hnot (hfirst.trans ?_)
        rw [hvalues, List.append_assoc]
        exact List.prefix_append _ _
      · exact ih hrest hlater

theorem rsplitOnce_eq_none : rsplitOnce separator values = none ↔ separator ∉ values := by
  induction values with
  | nil => simp [rsplitOnce]
  | cons value rest ih =>
    unfold rsplitOnce
    cases hrest : rsplitOnce separator rest with
    | some parts =>
      have hmem : separator ∈ rest := by
        by_contra hnot
        rw [ih.mpr hnot] at hrest
        cases hrest
      simp [hmem]
    | none =>
      have hnot := ih.mp hrest
      by_cases heq : value = separator
      · simp [heq]
      · simp [hnot, heq, Ne.symm heq]

theorem rsplitOnce_eq_some : rsplitOnce separator values = some (before, after) ↔
    values = before ++ separator :: after ∧ separator ∉ after := by
  induction values generalizing before after with
  | nil => simp [rsplitOnce]
  | cons value rest ih =>
    cases hrest : rsplitOnce separator rest with
    | some parts =>
      obtain ⟨first, last⟩ := parts
      obtain ⟨hparts, hlast⟩ := ih.mp hrest
      simp only [rsplitOnce, hrest]
      constructor
      · intro h
        cases h
        rw [hparts]
        exact ⟨rfl, hlast⟩
      · rintro ⟨heq, hafter⟩
        cases before with
        | nil =>
          obtain ⟨_, hsame⟩ := List.cons.inj heq
          refine absurd ?_ hafter
          rw [← hsame, hparts]
          exact List.mem_append_right _ (List.mem_cons_self ..)
        | cons head tail =>
          obtain ⟨rfl, hsame⟩ := List.cons.inj heq
          have hfound := ih.mpr ⟨hsame, hafter⟩
          rw [hrest] at hfound
          cases hfound
          rfl
    | none =>
      have hnot := rsplitOnce_eq_none.mp hrest
      simp only [rsplitOnce, hrest]
      constructor
      · intro h
        split at h
        · next heq =>
          cases h
          rw [heq]
          exact ⟨rfl, hnot⟩
        · cases h
      · rintro ⟨heq, hafter⟩
        cases before with
        | nil =>
          obtain ⟨rfl, rfl⟩ := List.cons.inj heq
          exact if_pos rfl
        | cons head tail =>
          obtain ⟨_, rfl⟩ := List.cons.inj heq
          exact absurd (List.mem_append_right _ (List.mem_cons_self ..)) hnot

/-! ## Replacements -/

/-- Replaces a number of places of a pattern. -/
def replaceFirst (pattern replacement : List α) : Nat → List α → List α
  | 0, values => values
  | places + 1, values =>
    match splitOnce pattern values with
    | none => values
    | some (before, after) => before ++ replacement ++ replaceFirst pattern replacement places after

/-- Puts a replacement wherever a pattern stands, from the left and without overlaps. A pattern is
not empty, so a list has no more places than values. -/
def replaceAll (pattern replacement values : List α) : List α :=
  replaceFirst pattern replacement values.length values

/-- The parts between the places stay as they are, and hold no further place. -/
theorem exists_parts_replaceAll (hne : pattern ≠ []) (values : List α) :
    ∃ parts, values = pattern.intercalate parts ∧
      replaceAll pattern replacement values = replacement.intercalate parts ∧
      ∀ part ∈ parts, ¬ pattern <:+: part := by
  have hgoes : ∀ places (values : List α), values.length ≤ places → ∃ part parts,
      values = pattern.intercalate (part :: parts) ∧
      replaceFirst pattern replacement places values = replacement.intercalate (part :: parts) ∧
      ∀ other ∈ part :: parts, ¬ pattern <:+: other := by
    intro places
    induction places with
    | zero =>
      intro values hlength
      obtain rfl := List.length_eq_zero_iff.mp (Nat.le_zero.mp hlength)
      refine ⟨[], [], (List.intercalate_singleton).symm, (List.intercalate_singleton).symm, ?_⟩
      intro other hother
      rw [List.mem_singleton.mp hother, List.infix_nil]
      exact hne
    | succ places ih =>
      intro values hlength
      unfold replaceFirst
      cases hsplit : splitOnce pattern values with
      | none =>
        refine ⟨values, [], (List.intercalate_singleton).symm,
          (List.intercalate_singleton).symm, ?_⟩
        intro other hother
        rw [List.mem_singleton.mp hother]
        exact splitOnce_eq_none.mp hsplit
      | some both =>
        obtain ⟨before, after⟩ := both
        have hvalues := eq_of_splitOnce hsplit
        have hpattern := List.length_pos_iff.mpr hne
        have hshorter : after.length ≤ places := by
          rw [hvalues] at hlength
          simp only [List.length_append] at hlength
          omega
        obtain ⟨part, parts, hafter, hreplaced, hparts⟩ := ih after hshorter
        refine ⟨before, part :: parts, ?_, ?_, ?_⟩
        · rw [hvalues, hafter, List.intercalate_cons_cons]
        · show before ++ replacement ++ replaceFirst pattern replacement places after = _
          rw [hreplaced, List.intercalate_cons_cons]
        · intro other hother
          rcases List.mem_cons.mp hother with rfl | hlater
          · exact not_infix_of_splitOnce hne hsplit
          · exact hparts other hlater
  obtain ⟨part, parts, hparts⟩ := hgoes _ values le_rfl
  exact ⟨part :: parts, hparts⟩

end

/-! ## Parts between separators -/

section
variable {α : Type} {needle before after : List α} {separator : α}

/-- What holds no separator lies before it or behind it. -/
theorem infix_append_cons (hneedle : separator ∉ needle)
    (h : needle <:+: before ++ separator :: after) : needle <:+: before ∨ needle <:+: after := by
  obtain ⟨left, right, heq⟩ := h
  rcases List.append_eq_append_iff.mp heq with ⟨more, hbefore, _⟩ | ⟨more, hleft, hmore⟩
  · exact .inl ⟨left, more, hbefore.symm⟩
  · cases more with
    | nil =>
      rw [List.append_nil] at hleft
      exact .inl ⟨left, [], by rw [List.append_nil, hleft]⟩
    | cons first more =>
      obtain ⟨rfl, hafter⟩ := List.cons.inj hmore
      rcases List.append_eq_append_iff.mp hleft with ⟨part, _, hneed⟩ | ⟨part, _, hpart⟩
      · refine absurd ?_ hneedle
        rw [hneed]
        exact List.mem_append_right _ (List.mem_cons_self ..)
      · cases part with
        | nil =>
          refine absurd ?_ hneedle
          rw [List.nil_append] at hpart
          rw [← hpart]
          exact List.mem_cons_self ..
        | cons head part =>
          obtain ⟨_, hrest⟩ := List.cons.inj hpart
          refine .inr ⟨part, right, ?_⟩
          rw [hafter, hrest]
          rfl

/-- What holds neither end of a list that stands between parts lies inside it or in a part. -/
theorem infix_intercalate {first last : α} {middle : List α} (hfirst : first ∉ needle)
    (hlast : last ∉ needle) {parts : List (List α)}
    (h : needle <:+: (first :: (middle ++ [last])).intercalate parts) :
    needle <:+: middle ∨ ∃ part ∈ parts, needle <:+: part := by
  induction parts with
  | nil =>
    obtain rfl := List.infix_nil.mp h
    exact .inl (List.nil_infix)
  | cons part parts ih =>
    cases parts with
    | nil =>
      rw [List.intercalate_singleton] at h
      exact .inr ⟨part, List.mem_cons_self .., h⟩
    | cons next parts =>
      rw [List.intercalate_cons_cons] at h
      have hsplit : part ++ first :: (middle ++ [last]) ++
          (first :: (middle ++ [last])).intercalate (next :: parts) =
          part ++ first :: (middle ++ last ::
            (first :: (middle ++ [last])).intercalate (next :: parts)) := by
        simp
      rw [hsplit] at h
      rcases infix_append_cons hfirst h with hpart | hlater
      · exact .inr ⟨part, List.mem_cons_self .., hpart⟩
      · rcases infix_append_cons hlast hlater with hmiddle | hlater
        · exact .inl hmiddle
        · rcases ih hlater with hmiddle | ⟨other, hother, hwithin⟩
          · exact .inl hmiddle
          · exact .inr ⟨other, List.mem_cons_of_mem _ hother, hwithin⟩

theorem infix_intercalate_of_mem {parts : List (List α)} {part : List α} (h : part ∈ parts) :
    part <:+: before.intercalate parts := by
  induction parts with
  | nil => cases h
  | cons head parts ih =>
    cases parts with
    | nil =>
      rw [List.mem_singleton.mp h, List.intercalate_singleton]
    | cons next parts =>
      rw [List.intercalate_cons_cons, List.append_assoc]
      rcases List.mem_cons.mp h with rfl | hlater
      · exact (List.prefix_append _ _).isInfix
      · exact (ih hlater).trans ((List.suffix_append _ _).trans (List.suffix_append _ _)).isInfix

/-- What is between parts, or in one of them. -/
theorem mem_or_mem_of_mem_intercalate {value : α} {parts : List (List α)}
    (h : value ∈ before.intercalate parts) : value ∈ before ∨ ∃ part ∈ parts, value ∈ part := by
  induction parts with
  | nil => cases h
  | cons head parts ih =>
    cases parts with
    | nil =>
      rw [List.intercalate_singleton] at h
      exact .inr ⟨head, List.mem_cons_self .., h⟩
    | cons next parts =>
      rw [List.intercalate_cons_cons, List.mem_append, List.mem_append] at h
      rcases h with (hhead | hbefore) | hlater
      · exact .inr ⟨head, List.mem_cons_self .., hhead⟩
      · exact .inl hbefore
      · rcases ih hlater with hbefore | ⟨part, hpart, hvalue⟩
        · exact .inl hbefore
        · exact .inr ⟨part, List.mem_cons_of_mem _ hpart, hvalue⟩

end

end Tangle
