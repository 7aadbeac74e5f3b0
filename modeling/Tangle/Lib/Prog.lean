import Mathlib.Logic.Basic
import Mathlib.Data.List.Basic

/-!
# Programs over an interface of operations

A program that talks to an outside system is a tree: it returns, or it names an operation and
continues with the reply. The tree says which operations run and in what order, so one program is
run against a state (`Prog.run`), stopped between two operations (`Prog.states`), or read against
a relation on replies that an adversary chooses from (`Prog.All`).

Programs that may fail are `ExceptT ε (Prog E)`; programs that carry a state of their own across
failures are `ExceptT ε (StateT σ (Prog E))`. `exec` and `execState` are their runs, with one
equation for each constructor and one for `bind`, so a run is computed by rewriting.
-/

namespace Tangle

/-- The operations a program may perform, each with the type of its reply. -/
structure Interface where
  Op : Type
  Reply : Op → Type

/-- A program over `E` that returns an `α`. -/
inductive Prog (E : Interface) (α : Type) : Type where
  | pure (a : α) : Prog E α
  | op (o : E.Op) (k : E.Reply o → Prog E α) : Prog E α

/-- A state machine that answers the operations of `E`. -/
abbrev Handler (E : Interface) (σ : Type) : Type :=
  (o : E.Op) → σ → E.Reply o × σ

namespace Prog

variable {E : Interface} {α β γ σ ε : Type}

/-- Sequencing: `f` continues at every leaf of the program. -/
def bind : Prog E α → (α → Prog E β) → Prog E β
  | .pure a, f => f a
  | .op o k, f => .op o fun r => (k r).bind f

instance : Monad (Prog E) where
  pure := .pure
  bind := bind

/-- The program that performs one operation and returns its reply. -/
def perform (o : E.Op) : Prog E (E.Reply o) :=
  .op o .pure

/-- Returning a value is the program that returns it. -/
@[simp] theorem pure_eq (a : α) : (Pure.pure a : Prog E α) = .pure a := rfl

/-- A program that returns hands its value to what follows. -/
@[simp] theorem pure_bind (a : α) (f : α → Prog E β) : (Prog.pure a >>= f) = f a := rfl

/-- What follows a program that begins with an operation follows what its reply leads to. -/
@[simp] theorem op_bind (o : E.Op) (k : E.Reply o → Prog E α) (f : α → Prog E β) :
    (Prog.op o k >>= f) = .op o fun r => k r >>= f := rfl

/-- Returning at every leaf changes nothing. -/
theorem bind_pure (p : Prog E α) : (p >>= Prog.pure) = p := by
  induction p with
  | pure a => rfl
  | op o k ih => simp only [op_bind, ih]

/-- Sequencing is associative. -/
theorem bind_assoc (p : Prog E α) (f : α → Prog E β) (g : β → Prog E γ) :
    (p >>= f >>= g) = p >>= fun a => f a >>= g := by
  induction p with
  | pure a => rfl
  | op o k ih => simp only [op_bind, ih]

instance : LawfulMonad (Prog E) :=
  LawfulMonad.mk' (Prog E) bind_pure pure_bind bind_assoc

/-! ## Runs -/

/-- The run of a program against a handler: its result and the state it leaves. -/
def run (h : Handler E σ) : Prog E α → σ → α × σ
  | .pure a, s => (a, s)
  | .op o k, s => (k (h o s).1).run h (h o s).2

variable {h : Handler E σ}

/-- A run of a program that returns ends with its value, in the state it began in. -/
@[simp] theorem run_pure (a : α) (s : σ) : (Prog.pure a).run h s = (a, s) := rfl

/-- A run begins with what the handler does with the first operation. -/
@[simp] theorem run_op (o : E.Op) (k : E.Reply o → Prog E α) (s : σ) :
    (Prog.op o k).run h s = (k (h o s).1).run h (h o s).2 := rfl

/-- A single operation runs as the handler says. -/
@[simp] theorem run_perform (o : E.Op) (s : σ) : (perform o).run h s = h o s := rfl

/-- A run of a sequence is the run of its second part from where the first part stopped. -/
theorem run_bind (p : Prog E α) (f : α → Prog E β) (s : σ) :
    (p >>= f).run h s = (f (p.run h s).1).run h (p.run h s).2 := by
  induction p generalizing s with
  | pure a => rfl
  | op o k ih => exact ih (h o s).1 (h o s).2

/-- The states a run passes through, the first before its first operation and the last after its
last one: where a run stopped between two operations leaves the outside system. -/
def states (h : Handler E σ) : Prog E α → σ → List σ
  | .pure _, s => [s]
  | .op o k, s => s :: (k (h o s).1).states h (h o s).2

/-- A program that returns passes through the state it began in. -/
@[simp] theorem states_pure (a : α) (s : σ) : (Prog.pure a).states h s = [s] := rfl

/-- A program that begins with an operation passes through that state and then through those of the
rest. -/
@[simp] theorem states_op (o : E.Op) (k : E.Reply o → Prog E α) (s : σ) :
    (Prog.op o k).states h s = s :: (k (h o s).1).states h (h o s).2 := rfl

/-- A run that is stopped before its first operation leaves the state it started from. -/
theorem mem_states_self (p : Prog E α) (s : σ) : s ∈ p.states h s := by
  cases p <;> simp

/-- What every operation does to the outside system a run has done when it is stopped. -/
theorem states_of_operations {R : σ → σ → Prop} (hrefl : ∀ s, R s s)
    (htrans : ∀ {s t u}, R s t → R t u → R s u) (hop : ∀ o s, R s (h o s).2)
    (p : Prog E α) (s : σ) :
    ∀ t ∈ p.states h s, R s t := by
  induction p generalizing s with
  | pure a =>
    intro t ht
    cases List.mem_singleton.mp ht
    exact hrefl s
  | op o k ih =>
    intro t ht
    rcases List.mem_cons.mp ht with rfl | ht
    · exact hrefl t
    · exact htrans (hop o s) (ih _ _ t ht)

/-- The state a run ends in is one it passes through. -/
theorem run_mem_states (p : Prog E α) (s : σ) : (p.run h s).2 ∈ p.states h s := by
  induction p generalizing s with
  | pure a => simp
  | op o k ih => exact List.mem_cons_of_mem _ (ih _ _)

/-! ## Replies an adversary chooses -/

/-- Every leaf the program reaches satisfies `Q`, whatever replies `S` allows. -/
def All (S : (o : E.Op) → E.Reply o → Prop) : Prog E α → (α → Prop) → Prop
  | .pure a, Q => Q a
  | .op o k, Q => ∀ r, S o r → (k r).All S Q

variable {S : (o : E.Op) → E.Reply o → Prop}

/-- A value that is returned has the property in question. -/
@[simp] theorem All_pure (a : α) (Q : α → Prop) : (Prog.pure a).All S Q ↔ Q a := Iff.rfl

/-- An operation leads to the property when each of its replies does. -/
@[simp] theorem All_op (o : E.Op) (k : E.Reply o → Prog E α) (Q : α → Prop) :
    (Prog.op o k).All S Q ↔ ∀ r, S o r → (k r).All S Q := Iff.rfl

/-- The rule of consequence. -/
theorem All.mono {p : Prog E α} {Q R : α → Prop} (hp : p.All S Q) (hQR : ∀ a, Q a → R a) :
    p.All S R := by
  induction p with
  | pure a => exact hQR a hp
  | op o k ih => exact fun r hr => ih r (hp r hr)

end Prog

/-! ## Programs that may fail -/

section
variable {E : Interface} {α β σ ε : Type} {h : Handler E σ}

/-- The run of a program that may fail. -/
def exec (h : Handler E σ) (p : ExceptT ε (Prog E) α) (s : σ) : Except ε α × σ :=
  Prog.run h p.run s

/-- Returning a value ends in it. -/
@[simp] theorem exec_pure (a : α) (s : σ) :
    exec h (pure a : ExceptT ε (Prog E) α) s = (.ok a, s) := rfl

/-- Throwing an error ends in it. -/
@[simp] theorem exec_throw (e : ε) (s : σ) :
    exec h (throw e : ExceptT ε (Prog E) α) s = (.error e, s) := rfl

/-- A program that cannot fail ends in the value it returns. -/
@[simp] theorem exec_lift (p : Prog E α) (s : σ) :
    exec h (ExceptT.lift p : ExceptT ε (Prog E) α) s = (.ok (p.run h s).1, (p.run h s).2) := by
  simp only [exec, ExceptT.run_lift, map_eq_pure_bind, Prog.run_bind, Prog.pure_eq, Prog.run_pure]

/-- A sequence goes on where its first part succeeded and stops where it failed. -/
theorem exec_bind (p : ExceptT ε (Prog E) α) (f : α → ExceptT ε (Prog E) β) (s : σ) :
    exec h (p >>= f) s =
      match exec h p s with
      | (.ok a, s') => exec h (f a) s'
      | (.error e, s') => (.error e, s') := by
  simp only [exec, ExceptT.run_bind, Prog.run_bind]
  rcases hp : Prog.run h p.run s with ⟨a | a, s'⟩ <;> rfl

/-- A sequence whose first part succeeds. -/
theorem exec_bind_ok {p : ExceptT ε (Prog E) α} {f : α → ExceptT ε (Prog E) β} {s s' : σ} {a : α}
    (hp : exec h p s = (.ok a, s')) : exec h (p >>= f) s = exec h (f a) s' := by
  rw [exec_bind, hp]

/-- Renaming the error of a program. -/
@[simp] theorem exec_adapt {δ : Type} (f : ε → δ) (p : ExceptT ε (Prog E) α) (s : σ) :
    exec h (ExceptT.adapt f p) s = ((exec h p s).1.mapError f, (exec h p s).2) := by
  have hrun : (ExceptT.adapt f p).run = (p.run >>= fun a => Prog.pure (a.mapError f)) := rfl
  rw [exec, hrun, Prog.run_bind]
  rfl

/-- A pure check inside a program: an error ends the program, a value goes on. -/
@[simp] theorem exec_liftExcept (x : Except ε α) (s : σ) :
    exec h (liftM x : ExceptT ε (Prog E) α) s = (x, s) := by
  cases x <;> rfl

end

/-! ## Programs with a state of their own -/

/-- A program that may fail and keeps a state of its own, also across a failure. -/
abbrev StatefulProg (E : Interface) (τ ε α : Type) : Type :=
  ExceptT ε (StateT τ (Prog E)) α

section
variable {E : Interface} {α β σ τ ε : Type} {h : Handler E σ}

/-- A program without a state of its own, run beside one. -/
def liftProg (p : ExceptT ε (Prog E) α) : StatefulProg E τ ε α :=
  ExceptT.mk (StateT.lift p.run)

/-- The program that returns the result of another, be it a value or an error. -/
def attempt {δ : Type} (p : StatefulProg E τ ε α) : StatefulProg E τ δ (Except ε α) :=
  ExceptT.mk ((fun result => .ok result) <$> p.run)

/-- The run of a program with a state of its own: its result, that state and the outside one. -/
def execState (h : Handler E σ) (p : StatefulProg E τ ε α) (t : τ) (s : σ) :
    Except ε α × τ × σ :=
  match Prog.run h (p.run.run t) s with
  | ((a, t'), s') => (a, t', s')

/-- Returning a value changes no state. -/
@[simp] theorem execState_pure (a : α) (t : τ) (s : σ) :
    execState h (pure a : StatefulProg E τ ε α) t s = (.ok a, t, s) := rfl

/-- Throwing an error changes no state. -/
@[simp] theorem execState_throw (e : ε) (t : τ) (s : σ) :
    execState h (throw e : StatefulProg E τ ε α) t s = (.error e, t, s) := rfl

/-- Reading the state returns it. -/
@[simp] theorem execState_get (t : τ) (s : σ) :
    execState h (get : StatefulProg E τ ε τ) t s = (.ok t, t, s) := rfl

/-- Writing the state puts the new one in place. -/
@[simp] theorem execState_set (t' t : τ) (s : σ) :
    execState h (set t' : StatefulProg E τ ε PUnit) t s = (.ok ⟨⟩, t', s) := rfl

/-- Changing the state applies the change. -/
@[simp] theorem execState_modify (f : τ → τ) (t : τ) (s : σ) :
    execState h (modify f : StatefulProg E τ ε PUnit) t s = (.ok ⟨⟩, f t, s) := rfl

/-- A program without a state leaves the state alone. -/
@[simp] theorem execState_liftProg (p : ExceptT ε (Prog E) α) (t : τ) (s : σ) :
    execState h (liftProg p : StatefulProg E τ ε α) t s =
      ((exec h p s).1, t, (exec h p s).2) := by
  have hrun : (liftProg p : StatefulProg E τ ε α).run.run t =
      (p.run >>= fun a => Prog.pure (a, t)) := rfl
  rw [execState, hrun, Prog.run_bind]
  rfl

/-- An attempt succeeds and leaves what the attempted program leaves. -/
@[simp] theorem execState_attempt {δ : Type} (p : StatefulProg E τ ε α) (t : τ) (s : σ) :
    execState h (attempt p : StatefulProg E τ δ (Except ε α)) t s =
      (.ok (execState h p t s).1, (execState h p t s).2) := by
  have hrun : (attempt p : StatefulProg E τ δ (Except ε α)).run.run t =
      (p.run.run t >>= fun a => Prog.pure (.ok a.1, a.2)) := rfl
  rw [execState, hrun, Prog.run_bind, execState]
  rfl

/-- Renaming the error of a program. -/
@[simp] theorem execState_adapt {δ : Type} (f : ε → δ) (p : StatefulProg E τ ε α) (t : τ)
    (s : σ) : execState h (ExceptT.adapt f p) t s =
      ((execState h p t s).1.mapError f, (execState h p t s).2) := by
  have hrun : (ExceptT.adapt f p : StatefulProg E τ δ α).run.run t =
      (p.run.run t >>= fun a => Prog.pure (a.1.mapError f, a.2)) := rfl
  rw [execState, hrun, Prog.run_bind, execState]
  rfl

/-- A pure check: an error ends the program, a value goes on. -/
@[simp] theorem execState_liftExcept (x : Except ε α) (t : τ) (s : σ) :
    execState h (liftM x : StatefulProg E τ ε α) t s = (x, t, s) := by
  cases x <;> rfl

/-- A sequence goes on where its first part succeeded and stops where it failed. -/
theorem execState_bind (p : StatefulProg E τ ε α) (f : α → StatefulProg E τ ε β) (t : τ) (s : σ) :
    execState h (p >>= f) t s =
      match execState h p t s with
      | (.ok a, t', s') => execState h (f a) t' s'
      | (.error e, t', s') => (.error e, t', s') := by
  have hrun : (p >>= f).run.run t =
      (p.run.run t >>= fun a => match a with
        | (.ok a, t') => (f a).run.run t'
        | (.error e, t') => Prog.pure (.error e, t')) := by
    refine congrArg (p.run.run t >>= ·) (funext fun a => ?_)
    obtain ⟨a | a, t'⟩ := a <;> rfl
  rw [execState, hrun, Prog.run_bind, execState]
  rcases Prog.run h (p.run.run t) s with ⟨⟨a | a, t'⟩, s'⟩ <;> rfl

/-- A sequence whose first part succeeds. -/
theorem execState_bind_ok {p : StatefulProg E τ ε α} {f : α → StatefulProg E τ ε β} {t t' : τ}
    {s s' : σ} {a : α} (hp : execState h p t s = (.ok a, t', s')) :
    execState h (p >>= f) t s = execState h (f a) t' s' := by
  rw [execState_bind, hp]

/-- A sequence whose first part fails. -/
theorem execState_bind_error {p : StatefulProg E τ ε α} {f : α → StatefulProg E τ ε β} {t t' : τ}
    {s s' : σ} {e : ε} (hp : execState h p t s = (.error e, t', s')) :
    execState h (p >>= f) t s = (.error e, t', s') := by
  rw [execState_bind, hp]

end

end Tangle
