import Tangle.Lib.Ordered

/-!
# The first of each key

Going through a list and keeping what carries a key that was not seen before. What is kept is a part
of the list, no key is kept twice, and every key of the list that was not seen before is kept
(`mem_keys_firstsBy`).
-/

namespace Tangle

variable {α κ : Type} [LinearOrder κ]

/-- The members whose keys are new, each for the first time. -/
def firstsBy (key : α → κ) (seen : BTreeSet κ) : List α → List α
  | [] => []
  | a :: rest =>
    if key a ∈ seen then
      firstsBy key seen rest
    else
      a :: firstsBy key (seen.insert (key a)) rest

variable {key : α → κ} {seen : BTreeSet κ} {l : List α}

theorem firstsBy_sublist : (firstsBy key seen l).Sublist l := by
  induction l generalizing seen with
  | nil => exact List.Sublist.refl _
  | cons a rest ih =>
    rw [firstsBy]
    split
    · exact ih.cons a
    · exact ih.cons_cons a

theorem mem_of_mem_firstsBy {a : α} (h : a ∈ firstsBy key seen l) : a ∈ l :=
  firstsBy_sublist.mem h

/-- What is kept has a new key. -/
theorem not_mem_of_mem_firstsBy {a : α} (h : a ∈ firstsBy key seen l) : key a ∉ seen := by
  induction l generalizing seen with
  | nil => cases h
  | cons b rest ih =>
    rw [firstsBy] at h
    split at h
    · exact ih h
    · next hnew =>
      rcases List.mem_cons.mp h with rfl | h
      · exact hnew
      · exact fun hseen => ih h (BTreeSet.mem_insert.mpr (.inr hseen))

/-- No key is kept twice. -/
theorem nodup_keys_firstsBy : ((firstsBy key seen l).map key).Nodup := by
  induction l generalizing seen with
  | nil => exact List.nodup_nil
  | cons b rest ih =>
    rw [firstsBy]
    split
    · exact ih
    · refine List.nodup_cons.mpr ⟨fun hmem => ?_, ih⟩
      obtain ⟨a, ha, heq⟩ := List.mem_map.mp hmem
      exact not_mem_of_mem_firstsBy ha (BTreeSet.mem_insert.mpr (.inl heq.symm))

/-- The keys that are kept are the new keys of the list. -/
theorem mem_keys_firstsBy {k : κ} :
    k ∈ (firstsBy key seen l).map key ↔ k ∈ l.map key ∧ k ∉ seen := by
  induction l generalizing seen with
  | nil => simp [firstsBy]
  | cons b rest ih =>
    rw [firstsBy]
    split
    · next hold =>
      rw [ih, List.map_cons, List.mem_cons]
      refine ⟨fun ⟨hmem, hnew⟩ => ⟨.inr hmem, hnew⟩, fun ⟨hmem, hnew⟩ => ⟨?_, hnew⟩⟩
      exact hmem.resolve_left fun heq => hnew (heq ▸ hold)
    · next hnew =>
      rw [List.map_cons, List.mem_cons, ih, List.map_cons, List.mem_cons, BTreeSet.mem_insert]
      refine ⟨fun h => ?_, fun ⟨hmem, hnot⟩ => ?_⟩
      · rcases h with rfl | ⟨hmem, hnot⟩
        · exact ⟨.inl rfl, hnew⟩
        · exact ⟨.inr hmem, fun hseen => hnot (.inr hseen)⟩
      · by_cases heq : k = key b
        · exact .inl heq
        · exact .inr ⟨hmem.resolve_left heq, fun h => h.elim (fun h => heq h.symm) hnot⟩

end Tangle
