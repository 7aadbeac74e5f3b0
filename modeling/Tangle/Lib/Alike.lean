import Tangle.Lib.Except

/-!
# Two computations alike

Two computations that may fail go alike when both fail with the same error or both succeed with
values in a relation. The rules take two texts of one shape apart side by side, so a property of two
runs is shown one step of each at a time.
-/

namespace Except

variable {ε δ α β γ : Type} {σ τ : Type}

/-- Both fail with the same error, or both succeed with related values. -/
inductive Alike (R : α → β → Prop) : Except ε α → Except ε β → Prop
  | error (e : ε) : Alike R (.error e) (.error e)
  | ok {a b} : R a b → Alike R (.ok a) (.ok b)

namespace Alike

variable {R : α → β → Prop} {x : Except ε α} {y : Except ε β}

theorem mono {S : α → β → Prop} (h : Alike R x y) (hRS : ∀ a b, R a b → S a b) : Alike S x y := by
  cases h with
  | error e => exact .error e
  | ok hab => exact .ok (hRS _ _ hab)

/-- Where both succeed, they do so with these values. -/
theorem runs (h : Alike R x y) : Alike (fun a b => x = .ok a ∧ y = .ok b ∧ R a b) x y := by
  cases h with
  | error e => exact .error e
  | ok hab => exact .ok ⟨rfl, rfl, hab⟩

/-- The rule of sequencing. -/
theorem bind {α' β' : Type} {S : α' → β' → Prop} {f : α → Except ε α'} {g : β → Except ε β'}
    (h : Alike R x y) (hfg : ∀ a b, R a b → Alike S (f a) (g b)) :
    Alike S (x >>= f) (y >>= g) := by
  cases h with
  | error e => exact .error e
  | ok hab => exact hfg _ _ hab

theorem map {α' β' : Type} {S : α' → β' → Prop} {f : α → α'} {g : β → β'} (h : Alike R x y)
    (hfg : ∀ a b, R a b → S (f a) (g b)) : Alike S (f <$> x) (g <$> y) := by
  cases h with
  | error e => exact .error e
  | ok hab => exact .ok (hfg _ _ hab)

theorem mapError {f : ε → δ} (h : Alike R x y) : Alike R (x.mapError f) (y.mapError f) := by
  cases h with
  | error e => exact .error (f e)
  | ok hab => exact .ok hab

/-- A computation goes like itself. -/
theorem refl {x : Except ε α} {R : α → α → Prop} (hR : ∀ a, x = .ok a → R a a) : Alike R x x := by
  cases x with
  | error e => exact .error e
  | ok a => exact .ok (hR a rfl)

/-- Folds over one list go alike when their steps do. -/
theorem foldlM {R : σ → τ → Prop} {l : List γ} {f : σ → γ → Except ε σ} {g : τ → γ → Except ε τ}
    {s : σ} {t : τ} (hst : R s t)
    (hstep : ∀ s t, ∀ c ∈ l, R s t → Alike R (f s c) (g t c)) :
    Alike R (l.foldlM f s) (l.foldlM g t) := by
  induction l generalizing s t with
  | nil => exact .ok hst
  | cons c rest ih =>
    rw [List.foldlM_cons, List.foldlM_cons]
    exact (hstep s t c (List.mem_cons_self ..) hst).bind fun s' t' h =>
      ih h fun s t d hd => hstep s t d (List.mem_cons_of_mem _ hd)

end Alike

end Except
