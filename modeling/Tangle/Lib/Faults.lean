import Tangle.Lib.Wp

/-!
# Operations that fail

An environment decides which operations fail and a log keeps what was asked and replied
(`Handler.faulty`, `Handler.logged`). An operation that fails has been done or has not: whoever gets
the error cannot tell. What holds of a program's runs however often its operations fail is proved of
any handler that answers as another one does or else fails (`AnswersAs`): such a handler has a state
of the other one in view, and tells by its own state that an operation has failed.
-/

namespace Tangle

variable {E : Interface} {α σ τ σ' ε φ : Type}

/-- An operation with its reply, and the states that it found and left. -/
structure Exchange (E : Interface) (σ : Type) where
  op : E.Op
  before : σ
  reply : E.Reply op
  after : σ

/-- Operations fail where a fault is due: one entry for each operation to come, and no faults after
the last. A fault strikes an operation in a state and decides what it replies and leaves. -/
def Handler.faulty (h : Handler E σ) (strike : (o : E.Op) → φ → σ → E.Reply o × σ) :
    Handler E (List (Option φ) × σ)
  | o, (some fault :: faults, s) => ((strike o fault s).1, faults, (strike o fault s).2)
  | o, (none :: faults, s) => ((h o s).1, faults, (h o s).2)
  | o, ([], s) => ((h o s).1, [], (h o s).2)

/-- The handler that logs what it replies and what becomes of the state in view. -/
def Handler.logged (h : Handler E σ') (view : σ' → σ) :
    Handler E (List (Exchange E σ) × σ')
  | o, (log, s) =>
    ((h o s).1, log ++ [⟨o, view s, (h o s).1, view (h o s).2⟩], (h o s).2)

/-- The log of a handler ends with what it was asked last. -/
theorem Handler.log_logged (h : Handler E σ') (view : σ' → σ) (o : E.Op)
    (s : List (Exchange E σ) × σ') :
    (h.logged view o s).2.1 = s.1 ++ [⟨o, view s.2, (h o s.2).1, view (h o s.2).2⟩] := rfl

/-- The handler `h'` answers an operation as `h` does in the state in view, or fails; the operation
has then been done there or not. While `steady` holds, it stays so, and once an operation has failed
`broken` holds. -/
structure AnswersAs (h' : Handler E σ') (h : Handler E σ) (failed : (o : E.Op) → E.Reply o → Prop)
    (view : σ' → σ) (steady broken : σ' → Prop) : Prop where
  stays : ∀ o s, steady s → steady (h' o s).2
  answers : ∀ o s,
    failed o (h' o s).1 ∧ (view (h' o s).2 = view s ∨ view (h' o s).2 = (h o (view s)).2) ∨
      (h' o s).1 = (h o (view s)).1 ∧ view (h' o s).2 = (h o (view s)).2
  noted : ∀ o s, steady s → failed o (h' o s).1 → broken (h' o s).2
  lasting : ∀ o s, steady s → broken s → broken (h' o s).2

section
variable {h : Handler E σ} {h' : Handler E σ'} {failed : (o : E.Op) → E.Reply o → Prop}
  {view : σ' → σ} {steady broken : σ' → Prop}

/-- A handler answers as it does itself; whether an operation has failed it does not tell. -/
theorem AnswersAs.self : AnswersAs h h failed id (fun _ => True) (fun _ => True) where
  stays _ _ _ := trivial
  answers _ _ := .inr ⟨rfl, rfl⟩
  noted _ _ _ _ := trivial
  lasting _ _ _ _ := trivial

/-- Whatever the handler answers, the state in view is left alone or what the operation leaves. -/
theorem AnswersAs.leaves (hf : AnswersAs h' h failed view steady broken) (o : E.Op) (s : σ') :
    view (h' o s).2 = view s ∨ view (h' o s).2 = (h o (view s)).2 := by
  rcases hf.answers o s with ⟨_, hview⟩ | ⟨_, hview⟩
  · exact hview
  · exact .inr hview

/-- What a fault may do: the operation fails, done or not, or the fault makes no difference. -/
def Strikes (h : Handler E σ) (failed : (o : E.Op) → E.Reply o → Prop)
    (strike : (o : E.Op) → φ → σ → E.Reply o × σ) : Prop :=
  ∀ o fault s, failed o (strike o fault s).1 ∧
      ((strike o fault s).2 = s ∨ (strike o fault s).2 = (h o s).2) ∨
    strike o fault s = h o s

/-- A faulty handler answers as the handler does or fails. Once an operation has failed, a failure
is in the log, behind what was logged at first. -/
theorem AnswersAs.faulty {strike : (o : E.Op) → φ → σ → E.Reply o × σ}
    (hstrike : Strikes h failed strike) (before : List (Exchange E σ)) :
    AnswersAs ((h.faulty strike).logged Prod.snd) h failed (fun s => s.2.2)
      (fun s => before <+: s.1)
      fun s => ∃ later, s.1 = before ++ later ∧ ∃ exchange ∈ later,
        failed exchange.op exchange.reply where
  stays o s hsteady := hsteady.trans (List.prefix_append _ _)
  answers o s := by
    obtain ⟨log, faults, s⟩ := s
    cases faults with
    | nil => exact .inr ⟨rfl, rfl⟩
    | cons fault faults =>
      cases fault with
      | none => exact .inr ⟨rfl, rfl⟩
      | some fault =>
        rcases hstrike o fault s with hfailed | hsame
        · exact .inl hfailed
        · exact .inr ⟨congrArg Prod.fst hsame, congrArg Prod.snd hsame⟩
  noted o s hsteady hfailed := by
    obtain ⟨log, s⟩ := s
    obtain ⟨later, rfl⟩ := hsteady
    refine ⟨later ++ [⟨o, s.2, (h.faulty strike o s).1, (h.faulty strike o s).2.2⟩], ?_, _,
      List.mem_append_right _ (List.mem_singleton_self _), hfailed⟩
    rw [Handler.log_logged, List.append_assoc]
  lasting o s _ hbroken := by
    obtain ⟨log, s⟩ := s
    obtain ⟨later, rfl, exchange, hexchange, hfailed⟩ := hbroken
    refine ⟨later ++ [⟨o, s.2, (h.faulty strike o s).1, (h.faulty strike o s).2.2⟩], ?_, exchange,
      List.mem_append_left _ hexchange, hfailed⟩
    rw [Handler.log_logged, List.append_assoc]

namespace AnswersAs

variable (hf : AnswersAs h' h failed view steady broken)
include hf

/-- An operation, with its reply read by `read`, which fails on replies that have failed. An error
leaves the state in view alone, or as the operation leaves it. -/
theorem wp_perform {o : E.Op} {read : E.Reply o → Except ε α} {s : σ'} {Q : α → σ' → Prop}
    {X : ε → σ' → Prop} (hs : steady s)
    (hread : ∀ reply a, read reply = .ok a → ¬failed o reply)
    (hfails : ∀ reply e, read reply = .error e → failed o reply)
    (hQ : ∀ a s', steady s' → read (h o (view s)).1 = .ok a → view s' = (h o (view s)).2 → Q a s')
    (hX : ∀ e s', steady s' → broken s' →
      (view s' = view s ∨ view s' = (h o (view s)).2) → X e s') :
    Wp h' steady (ExceptT.mk (read <$> Prog.perform o)) s Q X := by
  have hs' := hf.stays o s hs
  refine Wp.perform hs hs' (fun a ha => ?_) fun e he => ?_
  · rcases hf.answers o s with ⟨hfailed, _⟩ | ⟨hreply, hview⟩
    · exact absurd hfailed (hread _ a ha)
    · exact hQ a _ hs' (hreply ▸ ha) hview
  · exact hX e _ hs' (hf.noted o s hs (hfails _ e he)) (hf.leaves o s)

/-- Once an operation has failed, it has failed. -/
theorem wp_broken {p : StatefulProg E τ ε α} {t : τ} {s : σ'} (hs : steady s) (hbroken : broken s) :
    WpState h' steady p t s (fun _ _ s' => broken s') fun _ _ s' => broken s' := by
  have hstates := Prog.states_of_operations (h := h')
    (R := fun s s' => steady s ∧ broken s → steady s' ∧ broken s') (fun _ h => h)
    (fun h h' hs => h' (h hs)) (fun o s hs => ⟨hf.stays o s hs.1, hf.lasting o s hs.1 hs.2⟩)
    (p.run.run t) s
  refine ⟨fun u hu => (hstates u hu ⟨hs, hbroken⟩).1, ?_⟩
  have hend := (hstates _ (Prog.run_mem_states _ _) ⟨hs, hbroken⟩).2
  generalize Prog.run h' (p.run.run t) s = result at hend ⊢
  obtain ⟨⟨e | a, t'⟩, s'⟩ := result
  · exact hend
  · exact hend

end AnswersAs

end

end Tangle
