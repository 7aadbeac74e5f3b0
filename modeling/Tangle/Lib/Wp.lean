import Tangle.Lib.Keeps

/-!
# What a run leads to

`Wp` and `WpState` say of one run, from a given state, that it passes through states of `C` only,
that a value it returns satisfies `Q` together with the states it ends in, and that an error it
fails with satisfies `X`. The rules follow the program text: a sequence is taken apart with `seq`,
which asks for a condition between its parts, and every condition may use that `C` holds where it is
asked for.
-/

namespace Tangle

variable {E : Interface} {α β σ τ ε δ : Type} {h : Handler E σ} {C : σ → Prop}

/-- The end of a run, by what it returned. -/
def Ends (Q : α → σ → Prop) (X : ε → σ → Prop) : Except ε α → σ → Prop
  | .ok a, s => Q a s
  | .error e, s => X e s

/-- What holds of every end holds of this one. -/
theorem Ends.of_forall {Q : α → σ → Prop} {X : ε → σ → Prop} (hQ : ∀ a s, Q a s)
    (hX : ∀ e s, X e s) (result : Except ε α) (s : σ) : Ends Q X result s := by
  cases result with
  | ok a => exact hQ a s
  | error e => exact hX e s

/-- The run from `s` passes through `C`, and ends with `Q` or fails with `X`. -/
def Wp (h : Handler E σ) (C : σ → Prop) (p : ExceptT ε (Prog E) α) (s : σ) (Q : α → σ → Prop)
    (X : ε → σ → Prop) : Prop :=
  p.run.Safe h C s (Ends Q X)

/-- The run from `t` and `s` passes through `C`, and ends with `Q` or fails with `X`. -/
def WpState (h : Handler E σ) (C : σ → Prop) (p : StatefulProg E τ ε α) (t : τ) (s : σ)
    (Q : α → τ → σ → Prop) (X : ε → τ → σ → Prop) : Prop :=
  (p.run.run t).Safe h C s fun result s' =>
    Ends (fun a => Q a result.2) (fun e => X e result.2) result.1 s'

/-! ## Programs that may fail -/

namespace Wp

variable {p : ExceptT ε (Prog E) α} {f : α → ExceptT ε (Prog E) β} {s s' : σ}
  {Q R : α → σ → Prop} {Q' : β → σ → Prop} {X Y : ε → σ → Prop}

theorem pure {a : α} (hC : C s) (ha : Q a s) : Wp h C (pure a : ExceptT ε (Prog E) α) s Q X :=
  Prog.safe_pure.mpr ⟨hC, ha⟩

theorem throw {e : ε} (hC : C s) (hX : X e s) : Wp h C (throw e : ExceptT ε (Prog E) α) s Q X :=
  Prog.safe_pure.mpr ⟨hC, hX⟩

/-- The rule of consequence. -/
theorem mono (hp : Wp h C p s R Y) (hQ : ∀ a s', C s' → R a s' → Q a s')
    (hX : ∀ e s', C s' → Y e s' → X e s') : Wp h C p s Q X := by
  refine Prog.Safe.mono hp fun result s' hC hend => ?_
  cases result with
  | ok a => exact hQ a s' hC hend
  | error e => exact hX e s' hC hend

/-- The rule of sequencing. -/
theorem seq (hp : Wp h C p s R Y) (hf : ∀ a s', C s' → R a s' → Wp h C (f a) s' Q' X)
    (hX : ∀ e s', C s' → Y e s' → X e s') : Wp h C (p >>= f) s Q' X := by
  refine Prog.safe_bind.mpr (Prog.Safe.mono hp fun result s' hC hend => ?_)
  cases result with
  | ok a => exact hf a s' hC hend
  | error e => exact Prog.safe_pure.mpr ⟨hC, hX e s' hC hend⟩

/-- A check that looks at nothing outside. -/
theorem liftExcept {x : Except ε α} (hC : C s) (hQ : ∀ a, x = .ok a → Q a s)
    (hX : ∀ e, x = .error e → X e s) : Wp h C (liftM x : ExceptT ε (Prog E) α) s Q X := by
  cases x with
  | ok a => exact pure hC (hQ a rfl)
  | error e => exact throw hC (hX e rfl)

/-- A program that begins with a check. -/
theorem check_seq {x : Except ε α} (hC : C s) (hf : ∀ a, x = .ok a → Wp h C (f a) s Q' X)
    (hX : ∀ e, x = .error e → X e s) :
    Wp h C ((liftM x : ExceptT ε (Prog E) α) >>= f) s Q' X := by
  cases x with
  | ok a => exact hf a rfl
  | error e => exact throw hC (hX e rfl)

theorem adapt {rename : ε → δ} {X : δ → σ → Prop} (hp : Wp h C p s Q fun e => X (rename e)) :
    Wp h C (ExceptT.adapt rename p) s Q X := by
  refine Prog.safe_bind.mpr (Prog.Safe.mono hp fun result s' hC hend => ?_)
  cases result with
  | ok a => exact Prog.safe_pure.mpr ⟨hC, hend⟩
  | error e => exact Prog.safe_pure.mpr ⟨hC, hend⟩

/-- A step made at every member of a list keeps what it keeps at each. -/
theorem forM {γ : Type} {l : List γ} {step : γ → ExceptT ε (Prog E) PUnit} {P : σ → Prop}
    (hC : C s) (hs : P s)
    (hstep : ∀ x ∈ l, ∀ s', C s' → P s' → Wp h C (step x) s' (fun _ => P) X) :
    Wp h C (forM l step) s (fun _ => P) X := by
  induction l generalizing s with
  | nil => exact pure hC hs
  | cons x rest ih =>
    rw [List.forM_cons]
    refine seq (hstep x (List.mem_cons_self ..) s hC hs) (fun _ s' hC' hs' => ?_) fun _ _ _ hX => hX
    exact ih hC' hs' fun y hy => hstep y (List.mem_cons_of_mem _ hy)

/-- An operation, with its reply read by `read`. -/
theorem perform {o : E.Op} {read : E.Reply o → Except ε α} (hC : C s) (hC' : C (h o s).2)
    (hQ : ∀ a, read (h o s).1 = .ok a → Q a (h o s).2)
    (hX : ∀ e, read (h o s).1 = .error e → X e (h o s).2) :
    Wp h C (ExceptT.mk (read <$> Prog.perform o)) s Q X := by
  refine Prog.safe_op.mpr ⟨hC, Prog.safe_pure.mpr ⟨hC', ?_⟩⟩
  cases hread : read (h o s).1 with
  | ok a => exact hQ a hread
  | error e => exact hX e hread

/-- What the run returns, and where. -/
theorem exec (hp : Wp h C p s Q X) {result : Except ε α} (hrun : Tangle.exec h p s = (result, s')) :
    Ends Q X result s' := by
  have hend := hp.2
  unfold Tangle.exec at hrun
  rw [hrun] at hend
  exact hend

/-- A run that computes to its end without leaving `C`. -/
theorem of_states (hC : ∀ t ∈ p.run.states h s, C t)
    (hend : Ends Q X (Tangle.exec h p s).1 (Tangle.exec h p s).2) : Wp h C p s Q X :=
  ⟨hC, hend⟩

/-- A run whose end is known. -/
theorem of_exec {result : Except ε α} (hrun : Tangle.exec h p s = (result, s'))
    (hend : Ends Q X result s') : Wp h (fun _ => True) p s Q X := by
  refine of_states (fun _ _ => trivial) ?_
  rw [hrun]
  exact hend

/-- What a program returns wherever its states are, it returns in a run. -/
theorem of_keeps {P : α → Prop} (hp : Keeps h C p P) (hs : C s) :
    Wp h C p s (fun a _ => P a) fun _ _ => True := by
  refine Prog.Safe.mono (hp s hs) fun result s' _ hP => ?_
  cases result with
  | ok a => exact hP a rfl
  | error e => exact trivial

/-- What a program returns wherever its states are, it returns in a run, beside what is known of
that. -/
theorem and_keeps {I : σ → Prop} {P : α → Prop} (hp : Wp h C p s Q X) (hkept : Keeps h I p P)
    (hs : I s) : Wp h C p s (fun a s' => Q a s' ∧ P a) X := by
  refine ⟨hp.1, ?_⟩
  have hend := hp.2
  have hreturns := (hkept s hs).2
  generalize Prog.run h p.run s = result at hend hreturns ⊢
  obtain ⟨e | a, s'⟩ := result
  · exact hend
  · exact ⟨hend, hreturns a rfl⟩

/-- What is known of the end of a run in two ways. -/
theorem and {C' : σ → Prop} (hp : Wp h C p s Q X) (hp' : Wp h C' p s R Y) :
    Wp h C p s (fun a s' => Q a s' ∧ R a s') fun e s' => X e s' ∧ Y e s' := by
  refine ⟨hp.1, ?_⟩
  have hend := hp.2
  have hend' := hp'.2
  generalize Prog.run h p.run s = result at hend hend' ⊢
  obtain ⟨e | a, s'⟩ := result
  · exact ⟨hend, hend'⟩
  · exact ⟨hend, hend'⟩

/-- What the states on the way are no longer matters, but the last is one of them. -/
theorem forget (hp : Wp h C p s Q X) :
    Wp h (fun _ => True) p s (fun a s' => C s' ∧ Q a s') fun e s' => C s' ∧ X e s' := by
  refine ⟨fun _ _ => trivial, ?_⟩
  have hC := hp.1 _ (Prog.run_mem_states _ _)
  have hend := hp.2
  cases hresult : (p.run.run h s).1 with
  | ok a =>
    rw [hresult] at hend
    exact ⟨hC, hend⟩
  | error e =>
    rw [hresult] at hend
    exact ⟨hC, hend⟩

end Wp

/-! ## Programs with a state of their own -/

namespace WpState

variable {p : StatefulProg E τ ε α} {f : α → StatefulProg E τ ε β} {t t' : τ} {s s' : σ}
  {Q R : α → τ → σ → Prop} {Q' : β → τ → σ → Prop} {X Y : ε → τ → σ → Prop}

theorem pure {a : α} (hC : C s) (ha : Q a t s) :
    WpState h C (pure a : StatefulProg E τ ε α) t s Q X :=
  Prog.safe_pure.mpr ⟨hC, ha⟩

theorem throw {e : ε} (hC : C s) (hX : X e t s) :
    WpState h C (throw e : StatefulProg E τ ε α) t s Q X :=
  Prog.safe_pure.mpr ⟨hC, hX⟩

/-- The rule of consequence. -/
theorem mono (hp : WpState h C p t s R Y) (hQ : ∀ a t' s', C s' → R a t' s' → Q a t' s')
    (hX : ∀ e t' s', C s' → Y e t' s' → X e t' s') : WpState h C p t s Q X := by
  refine Prog.Safe.mono hp fun result s' hC hend => ?_
  obtain ⟨e | a, t'⟩ := result
  · exact hX e t' s' hC hend
  · exact hQ a t' s' hC hend

/-- The states on the way satisfy what follows from `C`, and the last satisfies `C`. -/
theorem weaken {C' : σ → Prop} (hp : WpState h C p t s Q X) (hC : ∀ s, C s → C' s) :
    WpState h C' p t s (fun a t' s' => C s' ∧ Q a t' s') fun e t' s' => C s' ∧ X e t' s' := by
  have hend := hp.mono (fun _ _ _ hlast ha => And.intro hlast ha)
    fun _ _ _ hlast he => And.intro hlast he
  exact ⟨fun state hstate => hC state (hend.1 state hstate), hend.2⟩

/-- The rule of sequencing. -/
theorem seq (hp : WpState h C p t s R Y)
    (hf : ∀ a t' s', C s' → R a t' s' → WpState h C (f a) t' s' Q' X)
    (hX : ∀ e t' s', C s' → Y e t' s' → X e t' s') : WpState h C (p >>= f) t s Q' X := by
  refine Prog.safe_bind.mpr (Prog.Safe.mono hp fun result s' hC hend => ?_)
  obtain ⟨e | a, t'⟩ := result
  · exact Prog.safe_pure.mpr ⟨hC, hX e t' s' hC hend⟩
  · exact hf a t' s' hC hend

/-- A program that begins by reading its state. -/
theorem get_seq {f : τ → StatefulProg E τ ε β} (hf : WpState h C (f t) t s Q' X) :
    WpState h C (get >>= f) t s Q' X :=
  hf

/-- A program that begins by setting its state. -/
theorem set_seq {f : PUnit → StatefulProg E τ ε β} (hf : WpState h C (f ⟨⟩) t' s Q' X) :
    WpState h C (set t' >>= f) t s Q' X :=
  hf

/-- A program that begins by changing its state. -/
theorem modify_seq {g : τ → τ} {f : PUnit → StatefulProg E τ ε β}
    (hf : WpState h C (f ⟨⟩) (g t) s Q' X) : WpState h C (modify g >>= f) t s Q' X :=
  hf

/-- A check that looks at nothing outside. -/
theorem liftExcept {x : Except ε α} (hC : C s) (hQ : ∀ a, x = .ok a → Q a t s)
    (hX : ∀ e, x = .error e → X e t s) : WpState h C (liftM x : StatefulProg E τ ε α) t s Q X := by
  cases x with
  | ok a => exact pure hC (hQ a rfl)
  | error e => exact throw hC (hX e rfl)

/-- A program that begins with a check. -/
theorem check_seq {x : Except ε α} (hC : C s) (hf : ∀ a, x = .ok a → WpState h C (f a) t s Q' X)
    (hX : ∀ e, x = .error e → X e t s) :
    WpState h C ((liftM x : StatefulProg E τ ε α) >>= f) t s Q' X := by
  cases x with
  | ok a => exact hf a rfl
  | error e => exact throw hC (hX e rfl)

/-- A program without a state, run beside one. -/
theorem liftProg {p : ExceptT ε (Prog E) α} (hp : Wp h C p s (fun a => Q a t) fun e => X e t) :
    WpState h C (liftProg p : StatefulProg E τ ε α) t s Q X := by
  refine Prog.safe_bind.mpr (Prog.Safe.mono hp fun result s' hC hend => ?_)
  exact Prog.safe_pure.mpr ⟨hC, hend⟩

/-- A program that begins with one without a state. -/
theorem liftProg_seq {p : ExceptT ε (Prog E) α} {R : α → σ → Prop} {Y : ε → σ → Prop}
    (hp : Wp h C p s R Y) (hf : ∀ a s', C s' → R a s' → WpState h C (f a) t s' Q' X)
    (hX : ∀ e s', C s' → Y e s' → X e t s') : WpState h C (Tangle.liftProg p >>= f) t s Q' X :=
  seq (R := fun a t' s' => t' = t ∧ R a s') (Y := fun e t' s' => t' = t ∧ Y e s')
    (liftProg (hp.mono (fun _ _ _ ha => ⟨rfl, ha⟩) fun _ _ _ hY => ⟨rfl, hY⟩))
    (fun a _ s' hC ⟨ht, ha⟩ => ht ▸ hf a s' hC ha) fun e _ s' hC ⟨ht, hY⟩ => ht ▸ hX e s' hC hY

/-- A program that begins with an attempt goes on after a failure. -/
theorem attempt_seq {f : Except ε α → StatefulProg E τ δ β} {X : δ → τ → σ → Prop}
    (hp : WpState h C p t s R Y)
    (hok : ∀ a t' s', C s' → R a t' s' → WpState h C (f (.ok a)) t' s' Q' X)
    (herror : ∀ e t' s', C s' → Y e t' s' → WpState h C (f (.error e)) t' s' Q' X) :
    WpState h C (attempt p >>= f) t s Q' X := by
  have hattempt : WpState h C (attempt p : StatefulProg E τ δ (Except ε α)) t s
      (fun result t' s' => Ends (fun a => R a t') (fun e => Y e t') result s') X := by
    refine Prog.safe_bind.mpr (Prog.Safe.mono hp fun result s' hC hend => ?_)
    exact Prog.safe_pure.mpr ⟨hC, hend⟩
  refine seq hattempt (fun result t' s' hC hend => ?_) fun _ _ _ _ hX => hX
  cases result with
  | ok a => exact hok a t' s' hC hend
  | error e => exact herror e t' s' hC hend

theorem adapt {rename : ε → δ} {X : δ → τ → σ → Prop}
    (hp : WpState h C p t s Q fun e => X (rename e)) :
    WpState h C (ExceptT.adapt rename p : StatefulProg E τ δ α) t s Q X := by
  refine Prog.safe_bind.mpr (Prog.Safe.mono hp fun result s' hC hend => ?_)
  obtain ⟨e | a, t'⟩ := result
  · exact Prog.safe_pure.mpr ⟨hC, hend⟩
  · exact Prog.safe_pure.mpr ⟨hC, hend⟩

/-- What is known of the end of a run in two ways. -/
theorem and {C' : σ → Prop} {R' : α → τ → σ → Prop} {X' : ε → τ → σ → Prop}
    (hp : WpState h C p t s Q X) (hp' : WpState h C' p t s R' X') :
    WpState h C p t s (fun a t' s' => Q a t' s' ∧ R' a t' s') fun e t' s' => X e t' s' ∧
      X' e t' s' := by
  refine ⟨hp.1, ?_⟩
  have hend := hp.2
  have hend' := hp'.2
  generalize Prog.run h (p.run.run t) s = result at hend hend' ⊢
  obtain ⟨⟨e | a, t'⟩, s'⟩ := result
  · exact ⟨hend, hend'⟩
  · exact ⟨hend, hend'⟩

/-- What a program keeps whatever its states are, it keeps in a run. -/
theorem of_keeps {J : τ → Prop} {P : α → Prop} (hp : KeepsState h C J p P) (ht : J t) (hs : C s) :
    WpState h C p t s (fun a t' _ => J t' ∧ P a) fun _ t' _ => J t' := by
  refine Prog.Safe.mono (hp t s ht hs) fun result s' _ ⟨hJ, hP⟩ => ?_
  obtain ⟨e | a, t'⟩ := result
  · exact hJ
  · exact ⟨hJ, hP a rfl⟩

/-- What every run keeps, a program keeps. -/
theorem keeps {J : τ → Prop} {P : α → Prop} (hp : ∀ t s, J t → C s → WpState h C p t s
    (fun a t' _ => J t' ∧ P a) fun _ t' _ => J t') : KeepsState h C J p P := by
  intro t s ht hs
  refine Prog.Safe.mono (hp t s ht hs) fun result s' _ hend => ?_
  obtain ⟨e | a, t'⟩ := result
  · exact ⟨hend, fun _ ha => (nomatch ha)⟩
  · refine ⟨hend.1, fun b hb => ?_⟩
    cases hb
    exact hend.2

/-- A step made at every member of a list keeps what it keeps at each. -/
theorem forM {γ : Type} {l : List γ} {step : γ → StatefulProg E τ ε PUnit} {P : τ → σ → Prop}
    (hC : C s) (hs : P t s)
    (hstep : ∀ x ∈ l, ∀ t' s', C s' → P t' s' → WpState h C (step x) t' s' (fun _ => P) X) :
    WpState h C (forM l step) t s (fun _ => P) X := by
  induction l generalizing t s with
  | nil => exact pure hC hs
  | cons x rest ih =>
    rw [List.forM_cons]
    refine seq (hstep x (List.mem_cons_self ..) t s hC hs) (fun _ t' s' hC' hs' => ?_)
      fun _ _ _ _ hX => hX
    exact ih hC' hs' fun y hy => hstep y (List.mem_cons_of_mem _ hy)

/-- A fold keeps what each of its steps keeps. -/
theorem foldlM {γ : Type} {l : List γ} {step : α → γ → StatefulProg E τ ε α}
    {P : α → τ → σ → Prop} {a : α} (hC : C s) (hs : P a t s)
    (hstep : ∀ a, ∀ x ∈ l, ∀ t' s', C s' → P a t' s' → WpState h C (step a x) t' s' P X) :
    WpState h C (l.foldlM step a) t s P X := by
  induction l generalizing a t s with
  | nil => exact pure hC hs
  | cons x rest ih =>
    rw [List.foldlM_cons]
    refine seq (hstep a x (List.mem_cons_self ..) t s hC hs) (fun b t' s' hC' hs' => ?_)
      fun _ _ _ _ hX => hX
    exact ih hC' hs' fun c y hy => hstep c y (List.mem_cons_of_mem _ hy)

/-- What the run returns, and where. -/
theorem exec (hp : WpState h C p t s Q X) {result : Except ε α}
    (hrun : execState h p t s = (result, t', s')) :
    Ends (fun a => Q a t') (fun e => X e t') result s' := by
  have hend := hp.2
  unfold execState at hrun
  rcases hp' : Prog.run h (p.run.run t) s with ⟨⟨result', u⟩, v⟩
  rw [hp'] at hrun hend
  cases hrun
  exact hend

end WpState

end Tangle
