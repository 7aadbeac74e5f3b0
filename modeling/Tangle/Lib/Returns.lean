import Tangle.Lib.Except

/-!
# What a computation returns

`Returns p Q` says of a computation over a state that may fail that what it returns satisfies `Q`,
whatever state it is started in: a rule of partial correctness for computations whose state is
nobody's concern. There is one rule for each way of making a computation.
-/

namespace Tangle

variable {σ ε α β : Type}

/-- When the computation succeeds, it returns something that satisfies `Q`. -/
def Returns (p : StateT σ (Except ε) α) (Q : α → Prop) : Prop :=
  ∀ s a s', p.run s = .ok (a, s') → Q a

namespace Returns

variable {p : StateT σ (Except ε) α} {Q R : α → Prop}

protected theorem pure {a : α} (h : Q a) : Returns (pure a : StateT σ (Except ε) α) Q := by
  intro s b s' hrun
  cases hrun
  exact h

protected theorem throw {e : ε} : Returns (fun _ => .error e : StateT σ (Except ε) α) Q := by
  intro s b s' hrun
  cases hrun

theorem mono (h : Returns p Q) (hQ : ∀ a, Q a → R a) : Returns p R :=
  fun s a s' hrun => hQ a (h s a s' hrun)

protected theorem bind {P : β → Prop} {f : α → StateT σ (Except ε) β} (h : Returns p Q)
    (hf : ∀ a, Q a → Returns (f a) P) : Returns (p >>= f) P := by
  intro s b s' hrun
  rw [StateT.run_bind, Except.bind_eq_ok] at hrun
  obtain ⟨⟨a, t⟩, hp, hrun⟩ := hrun
  exact hf a (h s a t hp) t b s' hrun

/-- A computation that leaves the state alone. -/
protected theorem liftM {x : Except ε α} (h : ∀ a, x = .ok a → Q a) :
    Returns (liftM x : StateT σ (Except ε) α) Q := by
  intro s a s' hrun
  cases hx : x with
  | error e =>
    rw [hx] at hrun
    cases hrun
  | ok b =>
    rw [hx] at hrun
    cases hrun
    exact h a hx

/-- A fold keeps what each of its steps keeps. -/
theorem foldlM {step : β → α → StateT σ (Except ε) β} {l : List α} {P : β → Prop} {init : β}
    (hinit : P init) (hstep : ∀ b, ∀ a ∈ l, P b → Returns (step b a) P) :
    Returns (l.foldlM step init) P := by
  induction l generalizing init with
  | nil => exact .pure hinit
  | cons a rest ih =>
    rw [List.foldlM_cons]
    exact .bind (hstep init a (List.mem_cons_self ..) hinit) fun b hb =>
      ih hb fun b a ha => hstep b a (List.mem_cons_of_mem _ ha)

/-- Every result of a map is one of a member of the list. -/
theorem mapM {f : α → StateT σ (Except ε) β} {l : List α} {P : β → Prop}
    (h : ∀ a ∈ l, Returns (f a) P) : Returns (l.mapM f) fun results => ∀ b ∈ results, P b := by
  induction l with
  | nil =>
    rw [List.mapM_nil]
    exact .pure fun b hb => (nomatch hb)
  | cons a rest ih =>
    rw [List.mapM_cons]
    refine .bind (h a (List.mem_cons_self ..)) fun b hb => ?_
    refine .bind (ih fun a ha => h a (List.mem_cons_of_mem _ ha)) fun results hresults => .pure ?_
    intro c hc
    rcases List.mem_cons.mp hc with rfl | hc
    · exact hb
    · exact hresults c hc

end Returns

end Tangle
