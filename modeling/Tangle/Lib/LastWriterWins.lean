import Tangle.Lib.Ordered

/-!
# Last-writer-wins maps

A map whose entries carry a stamp, where a write replaces the entry of its key unless that entry has
a later stamp. Which writes a map has seen is a relation between keys and entries, not a list:
`Covers W₀ W m` says that `m` has seen all of `W₀` and nothing that is not in `W`, and `Reflects W
m` that it has seen `W`: it holds, for each key, one of the writes to it and none with a later stamp
exists. A write adds itself to both relations (`Covers.put`), so any order of the same writes, with
any repetitions, leads to maps that reflect the same relation; and where stamps tell the writes of a
key apart these maps are equal (`Reflects.ext`). A map that has lost sight of some writes, but of
none that will not be repeated, reflects them all after the repetition.
-/

namespace Tangle.Lww

variable {κ ν τ : Type} [LinearOrder κ] [LinearOrder τ] {stamp : ν → τ}

/-- Writes an entry unless the key holds one with a later stamp. -/
def put (stamp : ν → τ) (m : BTreeMap κ ν) (k : κ) (v : ν) : BTreeMap κ ν :=
  if m[k]?.all fun current => decide (stamp current ≤ stamp v) then m.insert k v else m

/-- `m` holds entries of `W` only, and of each key written to in `W₀` one that is as late as any
of them. -/
structure Covers (stamp : ν → τ) (W₀ W : κ → ν → Prop) (m : BTreeMap κ ν) : Prop where
  /-- An entry of the map was written. -/
  written : ∀ {k v}, m[k]? = some v → W k v
  /-- A write is in the map unless a later one replaced it. -/
  latest : ∀ {k v}, W₀ k v → ∃ u, m[k]? = some u ∧ stamp v ≤ stamp u

/-- `m` holds, for each key written to, an entry written to it with a latest stamp. -/
abbrev Reflects (stamp : ν → τ) (W : κ → ν → Prop) (m : BTreeMap κ ν) : Prop :=
  Covers stamp W W m

/-- The writes of each key are told apart by their stamps. -/
def Told (stamp : ν → τ) (W : κ → ν → Prop) : Prop :=
  ∀ ⦃k v u⦄, W k v → W k u → stamp v = stamp u → v = u

variable {W₀ W₀' W W' : κ → ν → Prop} {m m' : BTreeMap κ ν} {k : κ} {v : ν}

/-- The empty map reflects no writes. -/
theorem Reflects.empty : Reflects stamp (fun _ _ => False) (∅ : BTreeMap κ ν) where
  written h := by simp at h
  latest h := h.elim

/-- A map that covers some writes covers fewer, among more. -/
theorem Covers.mono (h : Covers stamp W₀ W m) (h₀ : ∀ k v, W₀' k v → W₀ k v)
    (hW : ∀ k v, W k v → W' k v) : Covers stamp W₀' W' m where
  written hm := hW _ _ (h.written hm)
  latest hw := h.latest (h₀ _ _ hw)

/-- A map reflects its own entries. -/
theorem Reflects.self : Reflects stamp (fun k v => m[k]? = some v) m where
  written h := h
  latest h := ⟨_, h, le_refl _⟩

/-- Only the sets of writes matter. -/
theorem Covers.congr (h : Covers stamp W₀ W m) (h₀ : ∀ k v, W₀ k v ↔ W₀' k v)
    (hW : ∀ k v, W k v ↔ W' k v) : Covers stamp W₀' W' m :=
  h.mono (fun k v => (h₀ k v).mpr) fun k v => (hW k v).mp

/-- The two outcomes of a write: it enters the map, or a later entry keeps it out. -/
theorem put_cases (m : BTreeMap κ ν) (k : κ) (v : ν) :
    ((∀ u, m[k]? = some u → stamp u ≤ stamp v) ∧ put stamp m k v = m.insert k v) ∨
      (∃ u, m[k]? = some u ∧ stamp v < stamp u ∧ put stamp m k v = m) := by
  unfold put
  cases hm : m[k]? with
  | none => exact .inl ⟨fun u hu => (by cases hu), by simp⟩
  | some u =>
    rcases le_or_gt (stamp u) (stamp v) with hle | hlt
    · refine .inl ⟨fun w hw => ?_, by simp [hle]⟩
      cases hw
      exact hle
    · exact .inr ⟨u, rfl, hlt, by simp [not_le.mpr hlt]⟩

/-- A write changes the entry of its key, when that is not later, and no other. -/
theorem getElem?_put (m : BTreeMap κ ν) (k a : κ) (v : ν) :
    (put stamp m k v)[a]? =
      if k = a ∧ (∀ u, m[a]? = some u → stamp u ≤ stamp v) then some v else m[a]? := by
  rcases @put_cases _ _ _ _ _ stamp m k v with ⟨hle, hput⟩ | ⟨u, hu, hlt, hput⟩
  · rw [hput, BTreeMap.getElem?_insert]
    by_cases hk : k = a
    · subst hk
      rw [if_pos rfl, if_pos ⟨rfl, hle⟩]
    · rw [if_neg hk, if_neg fun h => hk h.1]
  · rw [hput, if_neg]
    rintro ⟨rfl, hle⟩
    exact not_le.mpr hlt (hle u hu)

/-- A write adds itself to the writes the map has seen. -/
theorem Covers.put (h : Covers stamp W₀ W m) (k : κ) (v : ν) :
    Covers stamp (fun k' v' => W₀ k' v' ∨ (k' = k ∧ v' = v))
      (fun k' v' => W k' v' ∨ (k' = k ∧ v' = v)) (put stamp m k v) := by
  rcases @put_cases _ _ _ _ _ stamp m k v with ⟨hle, hput⟩ | ⟨u, hu, hlt, hput⟩
  · rw [hput]
    refine ⟨fun {k' v'} hm => ?_, fun {k' v'} hw => ?_⟩
    · rw [BTreeMap.getElem?_insert] at hm
      split at hm
      · next hk => cases hm; exact .inr ⟨hk.symm, rfl⟩
      · exact .inl (h.written hm)
    · rw [BTreeMap.getElem?_insert]
      split
      · next hk =>
        subst hk
        refine ⟨v, rfl, ?_⟩
        rcases hw with hw | ⟨_, rfl⟩
        · obtain ⟨u, hu, hvu⟩ := h.latest hw
          exact le_trans hvu (hle u hu)
        · exact le_refl _
      · next hk =>
        rcases hw with hw | ⟨rfl, _⟩
        · exact h.latest hw
        · exact absurd rfl hk
  · rw [hput]
    refine ⟨fun hm => .inl (h.written hm), fun {k' v'} hw => ?_⟩
    rcases hw with hw | ⟨rfl, rfl⟩
    · exact h.latest hw
    · exact ⟨u, hu, le_of_lt hlt⟩

/-- Replacing the entry of a key by one that is as late keeps what the map has seen. -/
theorem Covers.insert (h : Covers stamp W₀ W m) (hv : W k v)
    (hlatest : ∀ u, W₀ k u → stamp u ≤ stamp v) : Covers stamp W₀ W (m.insert k v) where
  written hm := by
    rw [BTreeMap.getElem?_insert] at hm
    split at hm
    · next hk => cases hm; exact hk ▸ hv
    · exact h.written hm
  latest {k' u} hu := by
    rw [BTreeMap.getElem?_insert]
    split
    · next hk => subst hk; exact ⟨v, rfl, hlatest u hu⟩
    · exact h.latest hu

/-- An entry of another map that has seen the same writes may take the place of the map's own. -/
theorem Covers.insert_of (h : Covers stamp W₀ W m) (h' : Covers stamp W₀ W m')
    (hv : m'[k]? = some v) : Covers stamp W₀ W (m.insert k v) := by
  refine h.insert (h'.written hv) fun u hu => ?_
  obtain ⟨w, hw, hle⟩ := h'.latest hu
  cases hv.symm.trans hw
  exact hle

/-- The entry of a key is the write to it with the latest stamp. -/
theorem Reflects.getElem?_eq_some (h : Reflects stamp W m) (told : Told stamp W) :
    m[k]? = some v ↔ W k v ∧ ∀ u, W k u → stamp u ≤ stamp v := by
  refine ⟨fun hm => ⟨h.written hm, fun u hu => ?_⟩, fun ⟨hv, hmax⟩ => ?_⟩
  · obtain ⟨w, hw, huw⟩ := h.latest hu
    cases hm.symm.trans hw
    exact huw
  · obtain ⟨w, hw, hvw⟩ := h.latest hv
    rw [hw, told (h.written hw) hv (le_antisymm (hmax w (h.written hw)) hvw)]

/-- Maps that reflect the same writes are equal where stamps tell writes apart. -/
theorem Reflects.ext (h : Reflects stamp W m) (h' : Reflects stamp W m') (told : Told stamp W) :
    m = m' := by
  refine BTreeMap.ext fun k => Option.ext fun v => ?_
  rw [h.getElem?_eq_some told, h'.getElem?_eq_some told]

/-! ## Runs of writes -/

/-- A run of writes, each of them one entry or none. -/
def puts (stamp : ν → τ) (m : BTreeMap κ ν) (ws : List (Option (κ × ν))) : BTreeMap κ ν :=
  ws.foldl (fun m w => w.elim m fun w => put stamp m w.1 w.2) m

/-- A run of writes adds them all to the writes the map has seen. -/
theorem Covers.puts (h : Covers stamp W₀ W m) (ws : List (Option (κ × ν))) :
    Covers stamp (fun k v => W₀ k v ∨ some (k, v) ∈ ws) (fun k v => W k v ∨ some (k, v) ∈ ws)
      (Lww.puts stamp m ws) := by
  induction ws generalizing W₀ W m with
  | nil => exact h.congr (fun k v => by simp) fun k v => by simp
  | cons w rest ih =>
    cases w with
    | none => exact (ih h).congr (fun k v => by simp) fun k v => by simp
    | some w =>
      refine (ih (h.put w.1 w.2)).congr (fun k v => ?_) fun k v => ?_
      · simp only [List.mem_cons, Option.some.injEq, Prod.ext_iff, or_assoc]
      · simp only [List.mem_cons, Option.some.injEq, Prod.ext_iff, or_assoc]

end Tangle.Lww
