import Tangle.Lib.Except
import Tangle.Lib.Prog

/-!
# Programs that may be stopped

A run may be stopped between two operations, so what holds of the outside system must hold of every
state the run passes through and not only of the last. `Prog.Safe` says this of one run, with a
condition on how the run ends, and has one equation for each constructor and one for `bind`.

`Keeps` and `KeepsState` are the form most proofs need: a program keeps an invariant of the outside
system at every state it passes through, keeps an invariant of its own state whether it succeeds or
fails, and returns only values that satisfy a condition. Their rules follow the program text.
-/

namespace Tangle

namespace Prog

variable {E : Interface} {α β σ : Type} {h : Handler E σ} {I : σ → Prop}

/-- The run passes through states of `I` only, and ends with `Q`. -/
def Safe (h : Handler E σ) (I : σ → Prop) (p : Prog E α) (s : σ) (Q : α → σ → Prop) : Prop :=
  (∀ t ∈ p.states h s, I t) ∧ Q (p.run h s).1 (p.run h s).2

/-- A program that returns is safe where its result and the state are. -/
@[simp] theorem safe_pure {a : α} {s : σ} {Q : α → σ → Prop} :
    (Prog.pure a).Safe h I s Q ↔ I s ∧ Q a s := by
  simp [Safe]

/-- A program that begins with an operation is safe when the invariant holds now and the rest is
safe from what the operation leads to. -/
@[simp] theorem safe_op {o : E.Op} {k : E.Reply o → Prog E α} {s : σ} {Q : α → σ → Prop} :
    (Prog.op o k).Safe h I s Q ↔ I s ∧ (k (h o s).1).Safe h I (h o s).2 Q := by
  simp [Safe, and_assoc]

/-- The rule of sequencing. -/
theorem safe_bind {p : Prog E α} {f : α → Prog E β} {s : σ} {Q : β → σ → Prop} :
    (p >>= f).Safe h I s Q ↔ p.Safe h I s fun a t => (f a).Safe h I t Q := by
  induction p generalizing s with
  | pure a =>
    rw [pure_bind, safe_pure]
    exact ⟨fun hsafe => ⟨hsafe.1 s (mem_states_self _ _), hsafe⟩, And.right⟩
  | op o k ih => simp only [op_bind, safe_op, ih]

/-- The rule of consequence. -/
theorem Safe.mono {p : Prog E α} {s : σ} {Q R : α → σ → Prop} (hp : p.Safe h I s Q)
    (hQR : ∀ a t, I t → Q a t → R a t) : p.Safe h I s R :=
  ⟨hp.1, hQR _ _ (hp.1 _ (run_mem_states p s)) hp.2⟩

end Prog

variable {E : Interface} {α β σ τ ε δ : Type} {h : Handler E σ} {I : σ → Prop} {J : τ → Prop}

/-- The program keeps `I` at every state it passes through and returns values of `Q` only. -/
def Keeps (h : Handler E σ) (I : σ → Prop) (p : ExceptT ε (Prog E) α) (Q : α → Prop) : Prop :=
  ∀ s, I s → p.run.Safe h I s fun result _ => ∀ a, result = .ok a → Q a

/-- The program keeps `I` at every state it passes through and `J` of its own state, and returns
values of `Q` only. -/
def KeepsState (h : Handler E σ) (I : σ → Prop) (J : τ → Prop) (p : StatefulProg E τ ε α)
    (Q : α → Prop) : Prop :=
  ∀ t s, J t → I s → (p.run.run t).Safe h I s fun result _ =>
    J result.2 ∧ ∀ a, result.1 = .ok a → Q a

/-! ## Rules for programs that may fail -/

namespace Keeps

variable {p : ExceptT ε (Prog E) α} {Q R : α → Prop}

/-- Returning a value keeps the invariant. -/
theorem pure {a : α} (ha : Q a) : Keeps h I (pure a : ExceptT ε (Prog E) α) Q := by
  intro s hs
  refine Prog.safe_pure.mpr ⟨hs, fun b hb => ?_⟩
  cases hb
  exact ha

/-- Throwing an error keeps the invariant. -/
theorem throw {e : ε} : Keeps h I (throw e : ExceptT ε (Prog E) α) Q := by
  intro s hs
  exact Prog.safe_pure.mpr ⟨hs, fun b hb => (nomatch hb)⟩

/-- Nothing is asked of any program. -/
theorem any : Keeps h (fun _ => True) p fun _ => True :=
  fun _ _ => ⟨fun _ _ => trivial, fun _ _ => trivial⟩

/-- A weaker postcondition is kept. -/
theorem mono (hp : Keeps h I p Q) (hQR : ∀ a, Q a → R a) : Keeps h I p R :=
  fun s hs => (hp s hs).mono fun _ _ _ hQ a ha => hQR a (hQ a ha)

/-- One program after another keeps the invariant, the second with what the first ensures. -/
theorem bind {f : α → ExceptT ε (Prog E) β} {R : β → Prop} (hp : Keeps h I p Q)
    (hf : ∀ a, Q a → Keeps h I (f a) R) : Keeps h I (p >>= f) R := by
  intro s hs
  refine Prog.safe_bind.mpr ((hp s hs).mono fun result t ht hresult => ?_)
  cases result with
  | ok a => exact hf a (hresult a rfl) t ht
  | error e => exact Prog.safe_pure.mpr ⟨ht, fun b hb => (nomatch hb)⟩

/-- A check that looks at nothing outside. -/
theorem liftExcept {x : Except ε α} (hx : ∀ a, x = .ok a → Q a) :
    Keeps h I (liftM x : ExceptT ε (Prog E) α) Q := by
  cases x with
  | ok a => exact pure (hx a rfl)
  | error e => exact throw

/-- Another error in place of the one thrown keeps what was kept. -/
theorem adapt {f : ε → δ} (hp : Keeps h I p Q) : Keeps h I (ExceptT.adapt f p) Q := by
  intro s hs
  refine Prog.safe_bind.mpr ((hp s hs).mono fun result t ht hresult => ?_)
  refine Prog.safe_pure.mpr ⟨ht, fun a ha => ?_⟩
  exact hresult a (Except.mapError_eq_ok.mp ha)

/-- A loop keeps the invariant when its body does for each item. -/
theorem forM {γ : Type} {l : List γ} {f : γ → ExceptT ε (Prog E) PUnit}
    (hf : ∀ x ∈ l, Keeps h I (f x) fun _ => True) : Keeps h I (forM l f) fun _ => True := by
  induction l with
  | nil => exact pure trivial
  | cons x rest ih =>
    rw [List.forM_cons]
    exact (hf x (List.mem_cons_self ..)).bind fun _ _ =>
      ih fun y hy => hf y (List.mem_cons_of_mem _ hy)

/-- A loop with an accumulator keeps the invariant, and whatever each round keeps of the
accumulator. -/
theorem foldlM {γ : Type} {l : List γ} {f : α → γ → ExceptT ε (Prog E) α} {a : α} (ha : Q a)
    (hf : ∀ a, Q a → ∀ x ∈ l, Keeps h I (f a x) Q) : Keeps h I (l.foldlM f a) Q := by
  induction l generalizing a with
  | nil => exact pure ha
  | cons x rest ih =>
    rw [List.foldlM_cons]
    exact (hf a ha x (List.mem_cons_self ..)).bind fun b hb =>
      ih hb fun c hc y hy => hf c hc y (List.mem_cons_of_mem _ hy)

/-- An operation that leaves the invariant in place, with its reply read by `read`. -/
theorem perform {o : E.Op} {read : E.Reply o → Except ε α} (hkeep : ∀ s, I s → I (h o s).2)
    (hread : ∀ s a, I s → read (h o s).1 = .ok a → Q a) :
    Keeps h I (ExceptT.mk (read <$> Prog.perform o)) Q := by
  intro s hs
  refine Prog.safe_op.mpr ⟨hs, Prog.safe_pure.mpr ⟨hkeep s hs, fun a ha => ?_⟩⟩
  exact hread s a hs ha

end Keeps

/-! ## Rules for programs with a state of their own -/

namespace KeepsState

variable {p : StatefulProg E τ ε α} {Q R : α → Prop}

/-- Returning a value keeps both invariants. -/
theorem pure {a : α} (ha : Q a) : KeepsState h I J (pure a : StatefulProg E τ ε α) Q := by
  intro t s ht hs
  refine Prog.safe_pure.mpr ⟨hs, ht, fun b hb => ?_⟩
  cases hb
  exact ha

/-- Throwing an error keeps both invariants. -/
theorem throw {e : ε} : KeepsState h I J (throw e : StatefulProg E τ ε α) Q := by
  intro t s ht hs
  exact Prog.safe_pure.mpr ⟨hs, ht, fun b hb => (nomatch hb)⟩

/-- A weaker postcondition is kept. -/
theorem mono (hp : KeepsState h I J p Q) (hQR : ∀ a, Q a → R a) : KeepsState h I J p R :=
  fun t s ht hs => (hp t s ht hs).mono fun _ _ _ hr => ⟨hr.1, fun a ha => hQR a (hr.2 a ha)⟩

/-- One program after another keeps both invariants. -/
theorem bind {f : α → StatefulProg E τ ε β} {R : β → Prop} (hp : KeepsState h I J p Q)
    (hf : ∀ a, Q a → KeepsState h I J (f a) R) : KeepsState h I J (p >>= f) R := by
  intro t s ht hs
  refine Prog.safe_bind.mpr ((hp t s ht hs).mono fun result u hu hresult => ?_)
  obtain ⟨a | a, t'⟩ := result
  · exact Prog.safe_pure.mpr ⟨hu, hresult.1, fun b hb => (nomatch hb)⟩
  · exact hf a (hresult.2 a rfl) t' u hresult.1 hu

/-- Reading the state keeps both invariants, and the state read has its own. -/
theorem get : KeepsState h I J (get : StatefulProg E τ ε τ) J := by
  intro t s ht hs
  refine Prog.safe_pure.mpr ⟨hs, ht, fun a ha => ?_⟩
  cases ha
  exact ht

/-- Writing a state that has the invariant keeps both. -/
theorem set {t' : τ} (ht' : J t') :
    KeepsState h I J (set t' : StatefulProg E τ ε PUnit) fun _ => True := by
  intro t s ht hs
  exact Prog.safe_pure.mpr ⟨hs, ht', fun _ _ => trivial⟩

/-- Changing the state keeps both invariants when the change keeps the state's. -/
theorem modify {f : τ → τ} (hf : ∀ t, J t → J (f t)) :
    KeepsState h I J (modify f : StatefulProg E τ ε PUnit) fun _ => True := by
  intro t s ht hs
  exact Prog.safe_pure.mpr ⟨hs, hf t ht, fun _ _ => trivial⟩

/-- A check that looks at nothing outside. -/
theorem liftExcept {x : Except ε α} (hx : ∀ a, x = .ok a → Q a) :
    KeepsState h I J (liftM x : StatefulProg E τ ε α) Q := by
  cases x with
  | ok a => exact pure (hx a rfl)
  | error e => exact throw

/-- A program without a state, run beside one. -/
theorem liftProg {p : ExceptT ε (Prog E) α} (hp : Keeps h I p Q) :
    KeepsState h I J (liftProg p : StatefulProg E τ ε α) Q := by
  intro t s ht hs
  refine Prog.safe_bind.mpr ((hp s hs).mono fun result u hu hresult => ?_)
  exact Prog.safe_pure.mpr ⟨hu, ht, hresult⟩

/-- A failure inside an attempt has kept the invariants, too. -/
theorem attempt (hp : KeepsState h I J p Q) :
    KeepsState h I J (attempt p : StatefulProg E τ δ (Except ε α)) fun result =>
      ∀ a, result = .ok a → Q a := by
  intro t s ht hs
  refine Prog.safe_bind.mpr ((hp t s ht hs).mono fun result u hu hresult => ?_)
  refine Prog.safe_pure.mpr ⟨hu, hresult.1, fun a ha => ?_⟩
  cases ha
  exact hresult.2

/-- Another error in place of the one thrown keeps what was kept. -/
theorem adapt {f : ε → δ} (hp : KeepsState h I J p Q) :
    KeepsState h I J (ExceptT.adapt f p : StatefulProg E τ δ α) Q := by
  intro t s ht hs
  refine Prog.safe_bind.mpr ((hp t s ht hs).mono fun result u hu hresult => ?_)
  refine Prog.safe_pure.mpr ⟨hu, hresult.1, fun a ha => ?_⟩
  exact hresult.2 a (Except.mapError_eq_ok.mp ha)

/-- A loop keeps both invariants when its body does for each item. -/
theorem forM {γ : Type} {l : List γ} {f : γ → StatefulProg E τ ε PUnit}
    (hf : ∀ x ∈ l, KeepsState h I J (f x) fun _ => True) :
    KeepsState h I J (forM l f) fun _ => True := by
  induction l with
  | nil => exact pure trivial
  | cons x rest ih =>
    rw [List.forM_cons]
    exact (hf x (List.mem_cons_self ..)).bind fun _ _ =>
      ih fun y hy => hf y (List.mem_cons_of_mem _ hy)

/-- A loop with an accumulator keeps both invariants, and whatever each round keeps of the
accumulator. -/
theorem foldlM {γ : Type} {l : List γ} {f : α → γ → StatefulProg E τ ε α} {a : α} (ha : Q a)
    (hf : ∀ a, Q a → ∀ x ∈ l, KeepsState h I J (f a x) Q) :
    KeepsState h I J (l.foldlM f a) Q := by
  induction l generalizing a with
  | nil => exact pure ha
  | cons x rest ih =>
    rw [List.foldlM_cons]
    exact (hf a ha x (List.mem_cons_self ..)).bind fun b hb =>
      ih hb fun c hc y hy => hf c hc y (List.mem_cons_of_mem _ hy)

end KeepsState

/-- What keeps the invariants from a state of its own keeps the outside one, however it is read. -/
theorem KeepsState.run {δ β : Type} {p : StatefulProg E τ ε α} {Q : α → Prop} {R : β → Prop}
    {read : Except ε α × τ → Except δ β} {t : τ} (hp : KeepsState h I J p Q) (ht : J t)
    (hread : ∀ result t' b, J t' → (∀ a, result = .ok a → Q a) → read (result, t') = .ok b → R b) :
    Keeps h I (ExceptT.mk (p.run.run t >>= fun result => Prog.pure (read result))) R := by
  intro s hs
  refine Prog.safe_bind.mpr ((hp t s ht hs).mono fun result u hu hresult => ?_)
  exact Prog.safe_pure.mpr ⟨hu, fun b hb => hread result.1 result.2 b hresult.1 hresult.2 hb⟩

end Tangle
