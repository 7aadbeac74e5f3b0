import Mathlib.Logic.Basic
import Mathlib.Data.List.Basic

/-!
# Checks that fail with an error

Rules for computations in `Except`: what the success of a sequence, of a check made at every member
of a list, and of a fold that may stop says about its parts. Proofs about a parser take the parser
apart with these and never unfold the monad.
-/

namespace Except

variable {ε α β σ : Type}

/-- A sequence succeeds when both parts do. -/
theorem bind_eq_ok {x : Except ε α} {f : α → Except ε β} {b : β} :
    (x >>= f) = .ok b ↔ ∃ a, x = .ok a ∧ f a = .ok b := by
  cases x with
  | error e => simp [bind, Except.bind]
  | ok a => simp [bind, Except.bind]

/-- A sequence fails when its first part does, or when that succeeds and the second part fails. -/
theorem bind_eq_error {x : Except ε α} {f : α → Except ε β} {e : ε} :
    (x >>= f) = .error e ↔ x = .error e ∨ ∃ a, x = .ok a ∧ f a = .error e := by
  cases x with
  | error e => simp [bind, Except.bind]
  | ok a => simp [bind, Except.bind]

/-- What follows a value is given it. -/
@[simp] theorem ok_bind (a : α) (f : α → Except ε β) : (Except.ok a >>= f) = f a := rfl

/-- What follows an error is skipped. -/
@[simp] theorem error_bind (e : ε) (f : α → Except ε β) :
    ((Except.error e : Except ε α) >>= f) = .error e := rfl

/-- The success of a computation, whatever it returns. -/
def Succeeds (x : Except ε α) : Prop :=
  ∃ a, x = .ok a

/-- A value succeeds. -/
@[simp] theorem succeeds_ok (a : α) : (Except.ok a : Except ε α).Succeeds := ⟨a, rfl⟩

/-- An error does not succeed. -/
@[simp] theorem not_succeeds_error (e : ε) : ¬ (Except.error e : Except ε α).Succeeds := by
  intro ⟨_, h⟩
  cases h

instance (x : Except ε α) : Decidable x.Succeeds :=
  match x with
  | .ok a => .isTrue ⟨a, rfl⟩
  | .error e => .isFalse (not_succeeds_error e)

/-- A sequence succeeds when its first part does and its second part does from there. -/
theorem succeeds_bind {x : Except ε α} {f : α → Except ε β} :
    (x >>= f).Succeeds ↔ ∃ a, x = .ok a ∧ (f a).Succeeds := by
  cases x with
  | error e => simp
  | ok a => simp

/-- A value has no error to change. -/
@[simp] theorem mapError_ok {δ : Type} (a : α) (f : ε → δ) :
    (Except.ok a : Except ε α).mapError f = .ok a := rfl

/-- Renaming an error keeps success and failure apart. -/
@[simp] theorem mapError_eq_ok {δ : Type} {x : Except ε α} {f : ε → δ} {a : α} :
    x.mapError f = .ok a ↔ x = .ok a := by
  cases x <;> simp [Except.mapError]

/-- A changed error comes from one that was there. -/
theorem mapError_eq_error {δ : Type} {x : Except ε α} {f : ε → δ} {e : δ} :
    x.mapError f = .error e ↔ ∃ e', x = .error e' ∧ f e' = e := by
  cases x with
  | ok a => exact iff_of_false (fun h => by cases h) (fun ⟨_, h, _⟩ => by cases h)
  | error e' =>
    constructor
    · intro h
      cases h
      exact ⟨e', rfl, rfl⟩
    · rintro ⟨_, h, rfl⟩
      cases h
      rfl

/-- Changing the error changes nothing about success. -/
@[simp] theorem succeeds_mapError {δ : Type} {x : Except ε α} {f : ε → δ} :
    (x.mapError f).Succeeds ↔ x.Succeeds := by
  simp [Succeeds]

/-- A map changes a value. -/
@[simp] theorem functor_map_ok (a : α) (f : α → β) :
    f <$> (Except.ok a : Except ε α) = .ok (f a) := rfl

/-- A map leaves an error. -/
@[simp] theorem functor_map_error (e : ε) (f : α → β) :
    f <$> (Except.error e : Except ε α) = .error e := rfl

/-- A mapped result comes from one that was there. -/
@[simp] theorem map_eq_ok {x : Except ε α} {f : α → β} {b : β} :
    f <$> x = .ok b ↔ ∃ a, x = .ok a ∧ f a = b := by
  cases x <;> simp [Functor.map, Except.map]

/-- A map changes nothing about success. -/
@[simp] theorem succeeds_map {x : Except ε α} {f : α → β} : (f <$> x).Succeeds ↔ x.Succeeds := by
  cases x <;> simp [Functor.map, Except.map]

/-- The value of an option, or the error that reports its absence. -/
def okOr (value : Option α) (absent : ε) : Except ε α :=
  value.elim (.error absent) .ok

/-- A value that is there is no error. -/
@[simp] theorem okOr_some (a : α) (absent : ε) : okOr (some a) absent = .ok a := rfl

/-- A value that is absent is the error. -/
@[simp] theorem okOr_none (absent : ε) : okOr (none : Option α) absent = .error absent := rfl

/-- Only a value that is there comes out. -/
@[simp] theorem okOr_eq_ok {value : Option α} {absent : ε} {a : α} :
    okOr value absent = .ok a ↔ value = some a := by
  cases value <;> simp

/-- A check made at every member of a list passes when it passes at each. -/
theorem forM_eq_ok {l : List α} {f : α → Except ε Unit} :
    forM l f = .ok () ↔ ∀ a ∈ l, f a = .ok () := by
  induction l with
  | nil => simp [pure, Except.pure]
  | cons a rest ih =>
    rw [List.forM_cons, bind_eq_ok, List.forall_mem_cons, ← ih]
    exact ⟨fun ⟨_, ha, hrest⟩ => ⟨ha, hrest⟩, fun ⟨ha, hrest⟩ => ⟨_, ha, hrest⟩⟩

/-- A computation made at every member of a list succeeds when it succeeds at each. -/
theorem mapM_eq_ok {l : List α} {f : α → Except ε β} {bs : List β} :
    l.mapM f = .ok bs ↔ List.Forall₂ (fun a b => f a = .ok b) l bs := by
  induction l generalizing bs with
  | nil =>
    cases bs with
    | nil => simp [pure, Except.pure]
    | cons b bs =>
      refine ⟨fun h => ?_, fun h => ?_⟩
      · cases h
      · cases h
  | cons a rest ih =>
    simp only [List.mapM_cons, bind_eq_ok, pure, Except.pure, ok.injEq]
    refine ⟨fun ⟨b, hb, bs', hbs, heq⟩ => ?_, fun h => ?_⟩
    · subst heq
      exact .cons hb (ih.mp hbs)
    · cases h with
      | cons hb hbs => exact ⟨_, hb, _, ih.mpr hbs, rfl⟩

/-- Each result is that of some member of the list. -/
theorem mapM_mem {l : List α} {f : α → Except ε β} {bs : List β} (h : l.mapM f = .ok bs) :
    ∀ b ∈ bs, ∃ a ∈ l, f a = .ok b := by
  induction mapM_eq_ok.mp h with
  | nil => exact fun _ hb => (nomatch hb)
  | cons hfirst hrest ih =>
    intro b hb
    rcases List.mem_cons.mp hb with rfl | hb
    · exact ⟨_, List.mem_cons_self, hfirst⟩
    · obtain ⟨a, ha, hab⟩ := ih (mapM_eq_ok.mpr hrest) b hb
      exact ⟨a, List.mem_cons_of_mem _ ha, hab⟩

/-- A computation that succeeds at every member of a list succeeds on the list. -/
theorem mapM_succeeds {l : List α} {f : α → Except ε β} (h : ∀ a ∈ l, (f a).Succeeds) :
    (l.mapM f).Succeeds := by
  induction l with
  | nil => exact ⟨[], rfl⟩
  | cons a rest ih =>
    obtain ⟨b, hb⟩ := h a List.mem_cons_self
    obtain ⟨bs, hbs⟩ := ih fun a ha => h a (List.mem_cons_of_mem _ ha)
    exact ⟨b :: bs, mapM_eq_ok.mpr (.cons hb (mapM_eq_ok.mp hbs))⟩

/-- A decoder made at every member of a list succeeds on the list of what its results encode to. -/
theorem mapM_eq_ok_iff_map {f : α → Except ε β} {encode : β → α} {Admits : β → Prop}
    (h : ∀ a b, f a = .ok b ↔ a = encode b ∧ Admits b) {l : List α} {bs : List β} :
    l.mapM f = .ok bs ↔ l = bs.map encode ∧ ∀ b ∈ bs, Admits b := by
  rw [mapM_eq_ok]
  induction l generalizing bs with
  | nil =>
    cases bs with
    | nil => simp
    | cons b bs => exact iff_of_false (fun hall => nomatch hall) fun hmap => nomatch hmap.1
  | cons a rest ih =>
    cases bs with
    | nil => exact iff_of_false (fun hall => nomatch hall) fun hmap => nomatch hmap.1
    | cons b bs =>
      rw [List.forall₂_cons, h, ih, List.map_cons, List.cons.injEq, List.forall_mem_cons]
      exact ⟨fun ⟨⟨ha, hb⟩, hrest, hbs⟩ => ⟨⟨ha, hrest⟩, hb, hbs⟩,
        fun ⟨⟨ha, hrest⟩, hb, hbs⟩ => ⟨⟨ha, hb⟩, hrest, hbs⟩⟩

/-- A fold over nothing ends where it began. -/
@[simp] theorem foldlM_nil (f : σ → α → Except ε σ) (s : σ) : [].foldlM f s = .ok s := rfl

/-- A fold succeeds when its first step and the rest do. -/
@[simp] theorem foldlM_cons_ok {f : σ → α → Except ε σ} {a : α} {l : List α} {s t : σ} :
    (a :: l).foldlM f s = .ok t ↔ ∃ s', f s a = .ok s' ∧ l.foldlM f s' = .ok t := by
  rw [List.foldlM_cons, bind_eq_ok]

/-- A fold that may stop preserves what each of its steps preserves. -/
theorem foldlM_invariant {f : σ → α → Except ε σ} (I : σ → Prop) {l : List α} {s t : σ}
    (hstep : ∀ s a s', a ∈ l → I s → f s a = .ok s' → I s') (hs : I s)
    (h : l.foldlM f s = .ok t) : I t := by
  induction l generalizing s with
  | nil => cases h; exact hs
  | cons a rest ih =>
    obtain ⟨s', hs', hrest⟩ := foldlM_cons_ok.mp h
    refine ih (fun s a s' ha => hstep s a s' (List.mem_cons_of_mem _ ha)) ?_ hrest
    exact hstep s a s' (List.mem_cons_self ..) hs hs'

/-- A fold that runs to its end still does when its steps are replaced by ones that stop less. -/
theorem foldlM_mono {f g : σ → α → Except ε σ} {l : List α} {s t : σ}
    (hfg : ∀ s a s', f s a = .ok s' → g s a = .ok s') (h : l.foldlM f s = .ok t) :
    l.foldlM g s = .ok t := by
  induction l generalizing s with
  | nil => exact h
  | cons a rest ih =>
    obtain ⟨s', hs', hrest⟩ := foldlM_cons_ok.mp h
    exact foldlM_cons_ok.mpr ⟨s', hfg s a s' hs', ih hrest⟩

/-- A fold that runs to its end has taken each step somewhere. -/
theorem foldlM_steps {f : σ → α → Except ε σ} {l : List α} {s t : σ}
    (h : l.foldlM f s = .ok t) : ∀ a ∈ l, ∃ u, (f u a).Succeeds := by
  induction l generalizing s with
  | nil => exact fun _ h => (nomatch h)
  | cons first rest ih =>
    obtain ⟨next, hnext, hrest⟩ := foldlM_cons_ok.mp h
    intro a ha
    rcases List.mem_cons.mp ha with rfl | ha
    · exact ⟨s, next, hnext⟩
    · exact ih hrest a ha

/-- A fold that runs to its end has taken each step from where the invariant holds. -/
theorem foldlM_visits {f : σ → α → Except ε σ} (I : σ → Prop) {l : List α} {s t : σ}
    (hstep : ∀ s a s', I s → f s a = .ok s' → I s') (hs : I s) (h : l.foldlM f s = .ok t) :
    ∀ a ∈ l, ∃ u v, I u ∧ f u a = .ok v := by
  induction l generalizing s with
  | nil => exact fun _ h => (nomatch h)
  | cons first rest ih =>
    obtain ⟨next, hnext, hrest⟩ := foldlM_cons_ok.mp h
    intro a ha
    rcases List.mem_cons.mp ha with rfl | ha
    · exact ⟨s, next, hs, hnext⟩
    · exact ih (hstep s first next hs hnext) hrest a ha

/-- A fold whose steps never stop at a state the invariant admits runs to its end. -/
theorem foldlM_succeeds {f : σ → α → Except ε σ} (I : σ → Prop) {l : List α} {s : σ}
    (hstep : ∀ s a, a ∈ l → I s → ∃ s', f s a = .ok s' ∧ I s') (hs : I s) :
    ∃ t, l.foldlM f s = .ok t ∧ I t := by
  induction l generalizing s with
  | nil => exact ⟨s, rfl, hs⟩
  | cons a rest ih =>
    obtain ⟨s', hs', hI⟩ := hstep s a (List.mem_cons_self ..) hs
    obtain ⟨t, ht, hIt⟩ := ih (fun s a ha => hstep s a (List.mem_cons_of_mem _ ha)) hI
    exact ⟨t, foldlM_cons_ok.mpr ⟨s', hs', ht⟩, hIt⟩

end Except
