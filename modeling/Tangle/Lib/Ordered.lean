import Mathlib.Order.Compare
import Mathlib.Order.Defs.LinearOrder
import Mathlib.Data.List.Lex
import Mathlib.Data.Prod.Lex
import Std.Data.ExtTreeMap.Lemmas
import Std.Data.ExtTreeSet.Lemmas

/-!
# Ordered maps and sets

The ordered maps and sets of the program, over any type of keys with a lawful comparison. Two maps
are equal when they answer every key alike, so a proof about a map is a proof about its lookups;
what an insertion does to a lookup is `BTreeMap.getElem?_insert_self` and
`BTreeMap.getElem?_insert_ne`, and what iterating a map visits is `BTreeMap.mem_toList`.
-/

namespace Tangle

/-- A linear order's comparison returns `eq` on equal keys only. -/
instance lawfulEqOrdOfLinearOrder {α : Type} [LinearOrder α] : Std.LawfulEqOrd α :=
  ⟨compare_eq_iff_eq.mp⟩

instance transOrdOfLinearOrder {α : Type} [LinearOrder α] : Std.TransOrd α :=
  inferInstance

instance transOrdList {α : Type} [LinearOrder α] : Std.TransOrd (List α) :=
  inferInstance

/-- A map ordered by its keys. -/
abbrev BTreeMap (κ ν : Type) [Ord κ] : Type :=
  Std.ExtTreeMap κ ν compare

/-- A set ordered by its members. -/
abbrev BTreeSet (α : Type) [Ord α] : Type :=
  Std.ExtTreeSet α compare

namespace BTreeMap

variable {κ ν : Type} [Ord κ] [Std.TransOrd κ] {m m' : BTreeMap κ ν} {k a : κ} {v : ν}

/-- An empty map holds nothing. -/
@[simp] theorem getElem?_empty : (∅ : BTreeMap κ ν)[a]? = none :=
  Std.ExtTreeMap.getElem?_empty

/-- What is inserted is held. -/
@[simp] theorem getElem?_insert_self : (m.insert k v)[k]? = some v :=
  Std.ExtTreeMap.getElem?_insert_self

variable [Std.LawfulEqOrd κ]

/-- Two maps that answer every key alike are equal. -/
theorem ext (h : ∀ k : κ, m[k]? = m'[k]?) : m = m' :=
  Std.ExtTreeMap.ext_getElem? fun k => h k

/-- After an insertion the key has the value, and every other what it had. -/
theorem getElem?_insert [DecidableEq κ] :
    (m.insert k v)[a]? = if k = a then some v else m[a]? := by
  rw [Std.ExtTreeMap.getElem?_insert]
  simp only [Std.compare_eq_iff_eq]

/-- An insertion changes no other key. -/
theorem getElem?_insert_ne (h : k ≠ a) : (m.insert k v)[a]? = m[a]? := by
  rw [Std.ExtTreeMap.getElem?_insert, if_neg (Std.compare_eq_iff_eq.not.mpr h)]

/-- After an erasure the key has nothing, and every other what it had. -/
theorem getElem?_erase [DecidableEq κ] : (m.erase k)[a]? = if k = a then none else m[a]? := by
  rw [Std.ExtTreeMap.getElem?_erase]
  simp only [Std.compare_eq_iff_eq]

/-- Iterating a map visits its bindings. -/
theorem mem_toList : (k, v) ∈ m.toList ↔ m[k]? = some v :=
  Std.ExtTreeMap.mem_toList_iff_getElem?_eq_some

/-- Iterating a map visits no key twice. -/
theorem nodup_keys_toList : (m.toList.map Prod.fst).Nodup := by
  rw [List.Nodup, List.pairwise_map]
  exact Std.ExtTreeMap.distinct_keys_toList.imp fun h hab => h (Std.compare_eq_iff_eq.mpr hab)

/-- The first binding of a key among those iterated is the map's. -/
theorem lookup_toList [BEq κ] [LawfulBEq κ] : m.toList.lookup a = m[a]? := by
  have hmem : ∀ {l : List (κ × ν)}, (l.map Prod.fst).Nodup → ∀ v,
      l.lookup a = some v ↔ (a, v) ∈ l := by
    intro l hl v
    induction l with
    | nil => simp
    | cons binding rest ih =>
      obtain ⟨k, v'⟩ := binding
      obtain ⟨hfirst, hrest⟩ := List.nodup_cons.mp hl
      by_cases hkey : a = k
      · subst hkey
        have hnot : (a, v) ∉ rest := fun hin => hfirst (List.mem_map.mpr ⟨_, hin, rfl⟩)
        simp [hnot, eq_comm]
      · have hne : (a == k) = false := beq_false_of_ne hkey
        rw [List.lookup_cons, hne, List.mem_cons]
        simp [hkey, ih hrest]
  refine Option.ext fun v => ?_
  rw [hmem nodup_keys_toList, mem_toList]

end BTreeMap

namespace BTreeSet

variable {α : Type} [LinearOrder α] {s t : BTreeSet α} {a b : α}

/-- Two sets of the same members are equal. -/
theorem ext (h : ∀ a, a ∈ s ↔ a ∈ t) : s = t :=
  Std.ExtTreeSet.ext_mem h

/-- What a set holds with an element more. -/
theorem mem_insert : a ∈ s.insert b ↔ b = a ∨ a ∈ s := by
  rw [Std.ExtTreeSet.mem_insert, compare_eq_iff_eq]

/-- The list of a set has its elements. -/
theorem mem_toList : a ∈ s.toList ↔ a ∈ s :=
  Std.ExtTreeSet.mem_toList

/-- An empty set holds nothing. -/
theorem not_mem_empty : a ∉ (∅ : BTreeSet α) := by
  simp

/-- The set of a list has the list's elements. -/
theorem mem_ofList {l : List α} : a ∈ (Std.ExtTreeSet.ofList l compare : BTreeSet α) ↔ a ∈ l := by
  rw [Std.ExtTreeSet.mem_ofList, List.contains_iff_mem]

/-- A set is the set of the members its iteration visits. -/
theorem ofList_toList : (Std.ExtTreeSet.ofList s.toList compare : BTreeSet α) = s :=
  ext fun _ => mem_ofList.trans mem_toList

/-- Iterating a set visits no member twice. -/
theorem nodup_toList : s.toList.Nodup :=
  Std.ExtTreeSet.distinct_toList.imp fun h hab => h (compare_eq_iff_eq.mpr hab)

/-- A set has as many members as a list that holds each of them once. -/
theorem size_eq_length {l : List α} (hnodup : l.Nodup) (h : ∀ a, a ∈ s ↔ a ∈ l) :
    s.size = l.length := by
  have hperm : s.toList.Perm l := (List.perm_ext_iff_of_nodup nodup_toList hnodup).mpr fun a =>
    mem_toList.trans (h a)
  rw [← Std.ExtTreeSet.length_toList, hperm.length_eq]

end BTreeSet

end Tangle
