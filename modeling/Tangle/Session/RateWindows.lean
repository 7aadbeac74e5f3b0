import Mathlib.Data.List.Chain
import Tangle.Session.RateLimits

/-!
# The windows of a limiter

A window opens with the first hit of its key and lasts as long as the rule of the key says, so the
windows of a key lie on no grid. Two of them end at least one window apart: a window opens when the
one before it is over. So the hits that are taken in a stretch of time of one window's length belong
to two windows at most.

Dropping the windows that are over changes no answer, as a hit opens a new window in their place.
-/

namespace Tangle

/-- Where a test holds only if one of two others does, it holds no more often than both together. -/
theorem countP_le_add {α : Type*} {p q r : α → Bool} {xs : List α}
    (h : ∀ x ∈ xs, p x → q x ∨ r x) : xs.countP p ≤ xs.countP q + xs.countP r := by
  induction xs with
  | nil => exact Nat.zero_le _
  | cons x xs ih =>
    have hrest := ih fun y hmem => h y (List.mem_cons_of_mem _ hmem)
    have hhead := h x List.mem_cons_self
    simp only [List.countP_cons]
    cases hp : p x with
    | false => simp only [Bool.false_eq_true, if_false]; omega
    | true =>
      rcases hhead hp with hq | hr
      · simp only [hq, if_true]; omega
      · simp only [hr, if_true]; omega

/-! ## The calls of a limiter -/

namespace TangleRateLimiter

/-- The hits that the limiter has counted for a key, none when it has no entry. -/
def hits (limiter : TangleRateLimiter) (key : TangleRateLimitKey) : Nat :=
  ((limiter.entries key).map TangleRateLimitEntry.hits).getD 0

/-- Drops the windows that are over. -/
def retainActive (now : UnixTimestamp) : StateM TangleRateLimiter Unit := fun limiter =>
  ((), ⟨fun key => (limiter.entries key).filter fun entry => now < entry.resetAt⟩)

end TangleRateLimiter

/-- The message is let through. -/
def TangleRateLimitDecision.isAllowed : TangleRateLimitDecision → Bool
  | .allowed _ _ => true
  | .rejected _ => false

/-- The second at which the window of the message ends. -/
def TangleRateLimitDecision.resetAt : TangleRateLimitDecision → UnixTimestamp
  | .allowed _ resetAt => resetAt
  | .rejected resetAt => resetAt

/-- A call of a limiter. -/
inductive TangleRateLimiterCall where
  | record (key : TangleRateLimitKey) (rule : TangleRateLimitRule) (now : UnixTimestamp)
  | retainActive (now : UnixTimestamp)

namespace TangleRateLimiterCall

/-- The second at which a call is made. -/
def now : TangleRateLimiterCall → UnixTimestamp
  | record _ _ now => now
  | retainActive now => now

/-- The call counts a message, rather than dropping old entries. -/
def isRecord : TangleRateLimiterCall → Bool
  | record _ _ _ => true
  | retainActive _ => false

/-- Whether a call is no hit of another key. -/
def concerns (key : TangleRateLimitKey) : TangleRateLimiterCall → Bool
  | record key' _ _ => key' = key
  | retainActive _ => true

/-- The hits of a key among the calls are all under one rule, and no window that they open ends
beyond the clock. -/
def Under (key : TangleRateLimitKey) (rule : TangleRateLimitRule) :
    TangleRateLimiterCall → Prop
  | record key' rule' now => key' = key → rule' = rule ∧ now + rule.windowSeconds ≤ u64Max
  | retainActive _ => True

end TangleRateLimiterCall

/-- A hit and its answer. -/
structure TangleRateLimitHit where
  now : UnixTimestamp
  decision : TangleRateLimitDecision
deriving DecidableEq

namespace TangleRateLimiter

/-- The hits of a sequence of calls, each with its key. -/
def run (limiter : TangleRateLimiter) :
    List TangleRateLimiterCall → List (TangleRateLimitKey × TangleRateLimitHit)
  | [] => []
  | .record key rule now :: calls =>
    (key, ⟨now, (record key rule now limiter).1⟩) :: run (record key rule now limiter).2 calls
  | .retainActive now :: calls => run (retainActive now limiter).2 calls

/-- The hits of one key. -/
def hitsOf (limiter : TangleRateLimiter) (key : TangleRateLimitKey)
    (calls : List TangleRateLimiterCall) : List TangleRateLimitHit :=
  ((limiter.run calls).filter (·.1 = key)).map (·.2)

end TangleRateLimiter

/-! ## The window of one key -/

section
variable (rule : TangleRateLimitRule)

/-- The window that takes a hit. -/
def TangleRateLimitRule.window (now : UnixTimestamp) :
    Option TangleRateLimitEntry → TangleRateLimitEntry
  | some entry => entry.resetIfExpired rule now
  | none => .new rule now

/-- The answer to a hit, and the window it leaves. -/
def TangleRateLimitEntry.hit (entry : TangleRateLimitEntry) :
    TangleRateLimitDecision × TangleRateLimitEntry :=
  if rule.maxHits ≤ entry.hits then
    (.rejected entry.resetAt, entry)
  else
    (.allowed (rule.maxHits - saturatingAdd entry.hits 1) entry.resetAt,
      { entry with hits := saturatingAdd entry.hits 1 })

/-- A hit does not move the end of its window. -/
@[simp] theorem TangleRateLimitEntry.hit_resetAt (entry : TangleRateLimitEntry) :
    (entry.hit rule).1.resetAt = entry.resetAt ∧ (entry.hit rule).2.resetAt = entry.resetAt := by
  unfold hit
  split <;> exact ⟨rfl, rfl⟩

variable {rule}

/-- **A message changes the entry of its own key and no other**: the entry it finds, or the one that
takes its place, with one hit more. -/
theorem TangleRateLimiter.record_eq (key : TangleRateLimitKey) (now : UnixTimestamp)
    (limiter : TangleRateLimiter) :
    record key rule now limiter =
      (((rule.window now (limiter.entries key)).hit rule).1,
        ⟨Function.update limiter.entries key
          (some ((rule.window now (limiter.entries key)).hit rule).2)⟩) := by
  unfold record TangleRateLimitEntry.hit TangleRateLimitRule.window
  cases limiter.entries key with
  | none => dsimp only; split <;> rfl
  | some entry => dsimp only; split <;> rfl

/-- A window that takes a hit is either one that is still open or a new one. -/
theorem TangleRateLimitRule.window_cases (now : UnixTimestamp)
    (opened : Option TangleRateLimitEntry) :
    (∃ entry, opened = some entry ∧ now < entry.resetAt ∧ rule.window now opened = entry) ∨
      ((∀ entry ∈ opened, entry.resetAt ≤ now) ∧ rule.window now opened = .new rule now) := by
  cases opened with
  | none => exact .inr ⟨by simp, rfl⟩
  | some entry =>
    by_cases hover : entry.resetAt ≤ now
    · refine .inr ⟨by simpa using hover, ?_⟩
      exact if_pos hover
    · exact .inl ⟨entry, rfl, Nat.lt_of_not_le hover, if_neg hover⟩

/-- Where no second is past the largest, a window ends as many seconds later as its rule says. -/
theorem TangleRateLimitEntry.new_resetAt {now : UnixTimestamp}
    (h : now + rule.windowSeconds ≤ u64Max) :
    (TangleRateLimitEntry.new rule now).resetAt = now + rule.windowSeconds :=
  Nat.min_eq_left h

/-- A window that was just opened takes a hit. -/
theorem TangleRateLimitEntry.new_hit (now : UnixTimestamp) :
    ((TangleRateLimitEntry.new rule now).hit rule).1.isAllowed = true := by
  have hroom : ¬ rule.maxHits ≤ (TangleRateLimitEntry.new rule now).hits :=
    Nat.not_le.2 rule.maxHits_pos
  unfold hit
  rw [if_neg hroom]
  rfl

/-- A refused hit leaves its window as it is. -/
theorem TangleRateLimitEntry.hit_rejected {entry : TangleRateLimitEntry}
    (h : (entry.hit rule).1.isAllowed = false) : (entry.hit rule).2 = entry := by
  unfold hit at h ⊢
  split at h
  · next hfull => rw [if_pos hfull]
  · cases h

/-- The hits that one key takes from a time on, of a rule whose windows end within the clock, and
the window that is open before them. -/
inductive Windows (rule : TangleRateLimitRule) :
    Option TangleRateLimitEntry → UnixTimestamp → List TangleRateLimitHit → Prop
  | done (opened : Option TangleRateLimitEntry) (since : UnixTimestamp) :
    Windows rule opened since []
  | hit {opened : Option TangleRateLimitEntry} {since now : UnixTimestamp}
      {hits : List TangleRateLimitHit} :
      since ≤ now → now + rule.windowSeconds ≤ u64Max →
      Windows rule (some ((rule.window now opened).hit rule).2) now hits →
      Windows rule opened since (⟨now, ((rule.window now opened).hit rule).1⟩ :: hits)
  | dropped {entry : TangleRateLimitEntry} {since now : UnixTimestamp}
      {hits : List TangleRateLimitHit} :
      since ≤ now → entry.resetAt ≤ now → Windows rule none now hits →
      Windows rule (some entry) since hits

namespace Windows

variable {opened : Option TangleRateLimitEntry} {since : UnixTimestamp}
  {hits : List TangleRateLimitHit}

/-- What holds of the windows from one second on holds from any earlier one. -/
theorem earlier {since' : UnixTimestamp} (h : Windows rule opened since hits)
    (hsince : since' ≤ since) : Windows rule opened since' hits := by
  cases h with
  | done => exact .done _ _
  | hit hnow hend hrest => exact .hit (le_trans hsince hnow) hend hrest
  | dropped hnow hover hrest => exact .dropped (le_trans hsince hnow) hover hrest

/-- A hit is answered before its window ends. -/
theorem now_lt_resetAt (h : Windows rule opened since hits) :
    ∀ hit ∈ hits, since ≤ hit.now ∧ hit.now < hit.decision.resetAt := by
  induction h with
  | done => intro hit hmem; cases hmem
  | @hit opened since now hits hnow hend _ ih =>
    intro hit hmem
    rcases List.mem_cons.1 hmem with rfl | hmem
    · refine ⟨hnow, ?_⟩
      rw [(TangleRateLimitEntry.hit_resetAt rule _).1]
      rcases rule.window_cases now opened with ⟨entry, -, hopen, heq⟩ | ⟨-, heq⟩
      · rw [heq]
        exact hopen
      · rw [heq, TangleRateLimitEntry.new_resetAt hend]
        exact Nat.lt_add_of_pos_right rule.windowSeconds_pos
    · exact ⟨le_trans hnow (ih hit hmem).1, (ih hit hmem).2⟩
  | dropped hnow _ _ ih =>
    intro hit hmem
    exact ⟨le_trans hnow (ih hit hmem).1, (ih hit hmem).2⟩

/-- A window ends no later than one that would open with the hit it takes. -/
theorem resetAt_le (h : Windows rule opened since hits)
    (hopened : ∀ entry ∈ opened, entry.resetAt ≤ since + rule.windowSeconds) :
    ∀ hit ∈ hits, hit.decision.resetAt ≤ hit.now + rule.windowSeconds := by
  induction h with
  | done => intro hit hmem; cases hmem
  | @hit opened since now hits hnow hend _ ih =>
    have hwindow : (rule.window now opened).resetAt ≤ now + rule.windowSeconds := by
      rcases rule.window_cases now opened with ⟨entry, hentry, -, heq⟩ | ⟨-, heq⟩
      · rw [heq]
        exact le_trans (hopened entry hentry) (Nat.add_le_add_right hnow _)
      · rw [heq, TangleRateLimitEntry.new_resetAt hend]
    intro hit hmem
    rcases List.mem_cons.1 hmem with rfl | hmem
    · rw [(TangleRateLimitEntry.hit_resetAt rule _).1]
      exact hwindow
    · refine ih (fun entry hentry => ?_) hit hmem
      cases hentry
      rw [(TangleRateLimitEntry.hit_resetAt rule _).2]
      exact hwindow
  | dropped _ _ _ ih => exact ih (fun _ hentry => nomatch hentry)

/-- The windows that open later end later. -/
theorem le_resetAt {y : UnixTimestamp} (h : Windows rule opened since hits)
    (hopened : ∀ entry ∈ opened, y ≤ entry.resetAt) (hy : y ≤ since + rule.windowSeconds) :
    ∀ hit ∈ hits, y ≤ hit.decision.resetAt := by
  induction h with
  | done => intro hit hmem; cases hmem
  | @hit opened since now hits hnow hend _ ih =>
    have hy : y ≤ now + rule.windowSeconds := le_trans hy (Nat.add_le_add_right hnow _)
    have hwindow : y ≤ (rule.window now opened).resetAt := by
      rcases rule.window_cases now opened with ⟨entry, hentry, -, heq⟩ | ⟨-, heq⟩
      · rw [heq]
        exact hopened entry hentry
      · rw [heq, TangleRateLimitEntry.new_resetAt hend]
        exact hy
    intro hit hmem
    rcases List.mem_cons.1 hmem with rfl | hmem
    · rw [(TangleRateLimitEntry.hit_resetAt rule _).1]
      exact hwindow
    · refine ih (fun entry hentry => ?_) hy hit hmem
      cases hentry
      rw [(TangleRateLimitEntry.hit_resetAt rule _).2]
      exact hwindow
  | dropped hnow _ _ ih =>
    exact ih (fun _ hentry => nomatch hentry) (le_trans hy (Nat.add_le_add_right hnow _))

/-- The hits in windows that end in a stretch of one window's length. -/
def takenIn (rule : TangleRateLimitRule) (x : UnixTimestamp) (hit : TangleRateLimitHit) : Bool :=
  hit.decision.isAllowed &&
    (x < hit.decision.resetAt && hit.decision.resetAt ≤ x + rule.windowSeconds)

/-- The hits that a window has taken, if it ends in a stretch. -/
def heldIn (rule : TangleRateLimitRule) (x : UnixTimestamp) (entry : TangleRateLimitEntry) : Nat :=
  if x < entry.resetAt ∧ entry.resetAt ≤ x + rule.windowSeconds then entry.hits else 0

/-- No hit is taken in a stretch after the window that ends in it. -/
theorem takenIn_eq_zero {x : UnixTimestamp} {entry : TangleRateLimitEntry}
    (h : Windows rule none since hits) (hover : entry.resetAt ≤ since)
    (hstretch : x < entry.resetAt) : hits.countP (takenIn rule x) = 0 := by
  rw [List.countP_eq_zero]
  intro hit hmem htaken
  have hle : entry.resetAt + rule.windowSeconds ≤ hit.decision.resetAt :=
    h.le_resetAt (fun _ hentry => nomatch hentry) (Nat.add_le_add_right hover _) hit hmem
  have hend : hit.decision.resetAt ≤ x + rule.windowSeconds := by
    have := of_decide_eq_true (Bool.and_eq_true_iff.1 (Bool.and_eq_true_iff.1 htaken).2).2
    exact this
  exact absurd (le_trans hle hend) (Nat.not_le.2 (Nat.add_lt_add_right hstretch _))

/-- An entry that is over when the run begins holds none of its hits against a window of the run. -/
theorem countP_add_heldIn_of_over {x : UnixTimestamp} {entry : TangleRateLimitEntry}
    (h : Windows rule none since hits) (hover : entry.resetAt ≤ since)
    (hentry : entry.hits ≤ rule.maxHits) (hcount : hits.countP (takenIn rule x) ≤ rule.maxHits) :
    hits.countP (takenIn rule x) + heldIn rule x entry ≤ rule.maxHits := by
  by_cases hstretch : x < entry.resetAt ∧ entry.resetAt ≤ x + rule.windowSeconds
  · rw [takenIn_eq_zero h hover hstretch.1, heldIn, if_pos hstretch]
    omega
  · rw [heldIn, if_neg hstretch]
    exact hcount

/-- A hit that is taken is one more that its window holds. -/
theorem heldIn_hit {x : UnixTimestamp} (now : UnixTimestamp) {entry : TangleRateLimitEntry}
    (hmax : rule.maxHits ≤ u64Max) :
    heldIn rule x (entry.hit rule).2 =
      heldIn rule x entry + (if takenIn rule x ⟨now, (entry.hit rule).1⟩ then 1 else 0) := by
  by_cases hfull : rule.maxHits ≤ entry.hits
  · have hhit : entry.hit rule = (.rejected entry.resetAt, entry) := if_pos hfull
    rw [hhit]
    rfl
  · have hhit : entry.hit rule = (.allowed (rule.maxHits - (entry.hits + 1)) entry.resetAt,
        { entry with hits := entry.hits + 1 }) := by
      have hsum : saturatingAdd entry.hits 1 = entry.hits + 1 := by
        unfold saturatingAdd
        omega
      unfold TangleRateLimitEntry.hit
      rw [if_neg hfull, hsum]
    rw [hhit]
    by_cases hstretch : x < entry.resetAt ∧ entry.resetAt ≤ x + rule.windowSeconds
    · simp [heldIn, takenIn, TangleRateLimitDecision.isAllowed, TangleRateLimitDecision.resetAt,
        hstretch]
    · have hout : (decide (x < entry.resetAt) &&
          decide (entry.resetAt ≤ x + rule.windowSeconds)) = false := by
        simpa using hstretch
      have htaken (remaining : Nat) :
          takenIn rule x ⟨now, .allowed remaining entry.resetAt⟩ = false := hout
      rw [htaken, heldIn, if_neg hstretch, heldIn, if_neg hstretch]
      rfl

/-- An entry within its rule is within it after a hit that it lets through. -/
theorem hits_hit_le {entry : TangleRateLimitEntry} (hentry : entry.hits ≤ rule.maxHits) :
    (entry.hit rule).2.hits ≤ rule.maxHits := by
  unfold TangleRateLimitEntry.hit
  split
  · exact hentry
  · next hfull =>
    have hle : saturatingAdd entry.hits 1 ≤ entry.hits + 1 := Nat.min_le_left _ _
    dsimp only
    omega

/-- The windows that end in a stretch of one window's length take no more hits than one window
does: the hits counted on, and those that the open window holds. -/
theorem countP_takenIn_le (h : Windows rule opened since hits) (hmax : rule.maxHits ≤ u64Max)
    (x : UnixTimestamp) (hopened : ∀ entry ∈ opened, entry.hits ≤ rule.maxHits) :
    hits.countP (takenIn rule x) + (opened.map (heldIn rule x)).getD 0 ≤ rule.maxHits := by
  induction h with
  | done opened since =>
    cases opened with
    | none => exact Nat.zero_le _
    | some entry =>
      have hentry := hopened entry rfl
      rw [List.countP_nil, Option.map_some, Option.getD_some, heldIn]
      split <;> omega
  | @hit opened since now hits hnow hend hrest ih =>
    -- what the window holds after the hit counts the hit
    have hwindow (hle : (rule.window now opened).hits ≤ rule.maxHits) :
        (⟨now, ((rule.window now opened).hit rule).1⟩ :: hits).countP (takenIn rule x) +
          heldIn rule x (rule.window now opened) ≤ rule.maxHits := by
      have hcount := ih fun entry hentry => by
        cases hentry
        exact hits_hit_le hle
      rw [Option.map_some, Option.getD_some, heldIn_hit now hmax] at hcount
      rw [List.countP_cons]
      omega
    rcases rule.window_cases now opened with ⟨entry, hentry, -, heq⟩ | ⟨hover, heq⟩
    · rw [hentry, Option.map_some, Option.getD_some]
      rw [hentry] at heq hwindow
      rw [heq] at hwindow ⊢
      exact hwindow (hopened entry hentry)
    · rw [heq] at hwindow hrest ⊢
      have hcount := hwindow (Nat.zero_le _)
      cases opened with
      | none => exact Nat.le_trans (Nat.add_le_add_left (Nat.zero_le _) _) hcount
      | some entry =>
        exact countP_add_heldIn_of_over (.hit le_rfl hend hrest) (hover entry rfl)
          (hopened entry rfl) (le_trans (Nat.le_add_right _ _) hcount)
  | @dropped entry since now hits hnow hover hrest ih =>
    have hcount := ih fun _ hentry => nomatch hentry
    exact countP_add_heldIn_of_over hrest hover (hopened entry rfl) hcount

/-- Where no window is open before, the windows that end in a stretch of one window's length take
no more hits than one window does. -/
theorem countP_takenIn (h : Windows rule none since hits) (hmax : rule.maxHits ≤ u64Max)
    (x : UnixTimestamp) : hits.countP (takenIn rule x) ≤ rule.maxHits :=
  h.countP_takenIn_le hmax x fun _ hentry => nomatch hentry

/-- One window takes no more hits than its rule says. -/
theorem countP_window (h : Windows rule none since hits) (hmax : rule.maxHits ≤ u64Max)
    (resetAt : UnixTimestamp) :
    hits.countP (fun hit => hit.decision.isAllowed && hit.decision.resetAt = resetAt) ≤
      rule.maxHits := by
  refine le_trans (List.countP_mono_left fun hit hmem hwindow => ?_)
    (h.countP_takenIn hmax (resetAt - 1))
  obtain ⟨hallowed, hreset⟩ := Bool.and_eq_true_iff.1 hwindow
  have hreset := of_decide_eq_true hreset
  have hlt := (h.now_lt_resetAt hit hmem).2
  have hpos := rule.windowSeconds_pos
  have hstretch : resetAt - 1 < hit.decision.resetAt ∧
      hit.decision.resetAt ≤ resetAt - 1 + rule.windowSeconds := by
    unfold UnixTimestamp at *
    omega
  exact Bool.and_eq_true_iff.2 ⟨hallowed, by simpa using hstretch⟩

/-- A stretch of one window's length takes no more hits than two windows do. -/
theorem countP_interval (h : Windows rule none since hits) (hmax : rule.maxHits ≤ u64Max)
    (start : UnixTimestamp) :
    hits.countP (fun hit => hit.decision.isAllowed &&
      (start ≤ hit.now && hit.now < start + rule.windowSeconds)) ≤ 2 * rule.maxHits := by
  have hfirst := h.countP_takenIn hmax start
  have hsecond := h.countP_takenIn hmax (start + rule.windowSeconds)
  suffices hsplit : ∀ hit ∈ hits, (hit.decision.isAllowed &&
      (start ≤ hit.now && hit.now < start + rule.windowSeconds)) →
      takenIn rule start hit ∨ takenIn rule (start + rule.windowSeconds) hit by
    have hcount := countP_le_add hsplit
    omega
  intro hit hmem hin
  obtain ⟨hallowed, hin⟩ := Bool.and_eq_true_iff.1 hin
  obtain ⟨hstart, hend⟩ := Bool.and_eq_true_iff.1 hin
  have hstart := of_decide_eq_true hstart
  have hend := of_decide_eq_true hend
  have hlt := (h.now_lt_resetAt hit hmem).2
  have hle := h.resetAt_le (fun _ hentry => nomatch hentry) hit hmem
  by_cases hreset : hit.decision.resetAt ≤ start + rule.windowSeconds
  · refine .inl (Bool.and_eq_true_iff.2 ⟨hallowed, ?_⟩)
    have hafter : start < hit.decision.resetAt := lt_of_le_of_lt hstart hlt
    simpa using ⟨hafter, hreset⟩
  · refine .inr (Bool.and_eq_true_iff.2 ⟨hallowed, ?_⟩)
    have hbefore : hit.decision.resetAt ≤ start + rule.windowSeconds + rule.windowSeconds :=
      le_trans hle (Nat.add_le_add_right hend.le _)
    simpa using ⟨Nat.lt_of_not_le hreset, hbefore⟩

/-- A hit after the open window is taken. -/
theorem head_allowed (h : Windows rule opened since hits) :
    ∀ hit ∈ hits.head?, (∀ entry ∈ opened, entry.resetAt ≤ hit.now) →
      hit.decision.isAllowed = true := by
  induction h with
  | done => intro hit hmem; cases hmem
  | @hit opened since now hits _ _ _ _ =>
    intro hit hmem hover
    cases hmem
    rcases rule.window_cases now opened with ⟨entry, hentry, hopen, -⟩ | ⟨-, heq⟩
    · exact absurd (hover entry hentry) (Nat.not_le.2 hopen)
    · rw [heq]
      exact TangleRateLimitEntry.new_hit now
  | dropped _ _ _ ih =>
    intro hit hmem _
    exact ih hit hmem fun _ hentry => nomatch hentry

/-- The first hit at the end of a window, or after it, is taken. -/
theorem isChain (h : Windows rule opened since hits) :
    hits.IsChain fun last next =>
      last.decision.resetAt ≤ next.now → next.decision.isAllowed = true := by
  induction h with
  | done => exact .nil
  | @hit opened since now hits _ _ hrest ih =>
    refine List.isChain_cons.2 ⟨fun next hmem hover => ?_, ih⟩
    refine hrest.head_allowed next hmem fun entry hentry => ?_
    cases hentry
    rw [(TangleRateLimitEntry.hit_resetAt rule _).1] at hover
    rw [(TangleRateLimitEntry.hit_resetAt rule _).2]
    exact hover
  | dropped _ _ _ ih => exact ih

end Windows

end

/-! ## Runs of a limiter -/

namespace TangleRateLimiter

section
variable {limiter : TangleRateLimiter} {key : TangleRateLimitKey}

/-- The first call of a run on its own key is the first of its hits. -/
theorem hitsOf_record (rule : TangleRateLimitRule) (now : UnixTimestamp)
    (calls : List TangleRateLimiterCall) :
    limiter.hitsOf key (.record key rule now :: calls) =
      ⟨now, (record key rule now limiter).1⟩ ::
        hitsOf (record key rule now limiter).2 key calls := by
  simp [hitsOf, run]

/-- A call on another key is none of the hits. -/
theorem hitsOf_record_of_ne {key' : TangleRateLimitKey} (hne : key' ≠ key)
    (rule : TangleRateLimitRule) (now : UnixTimestamp) (calls : List TangleRateLimiterCall) :
    limiter.hitsOf key (.record key' rule now :: calls) =
      hitsOf (record key' rule now limiter).2 key calls := by
  simp [hitsOf, run, hne]

/-- A message leaves its own key with the entry that counted it. -/
theorem entries_record (rule : TangleRateLimitRule) (now : UnixTimestamp) :
    (record key rule now limiter).2.entries key =
      some ((rule.window now (limiter.entries key)).hit rule).2 := by
  rw [record_eq]
  exact Function.update_self _ _ _

/-- A message leaves every other key as it was. -/
theorem entries_record_of_ne {key' : TangleRateLimitKey} (hne : key' ≠ key)
    (rule : TangleRateLimitRule) (now : UnixTimestamp) :
    (record key' rule now limiter).2.entries key = limiter.entries key := by
  rw [record_eq]
  exact Function.update_of_ne hne.symm _ _

/-- A window that is over is dropped; an open one stays. -/
theorem entries_retainActive (limiter : TangleRateLimiter) (key : TangleRateLimitKey)
    (now : UnixTimestamp) :
    (∃ entry, limiter.entries key = some entry ∧ entry.resetAt ≤ now ∧
        (retainActive now limiter).2.entries key = none) ∨
      (retainActive now limiter).2.entries key = limiter.entries key := by
  unfold retainActive
  cases hentry : limiter.entries key with
  | none => exact .inr (by simp [hentry])
  | some entry =>
    by_cases hover : entry.resetAt ≤ now
    · exact .inl ⟨entry, rfl, hover, by simp [hentry, hover]⟩
    · exact .inr (by simp [hentry, Nat.lt_of_not_le hover])

/-- The hits of a key go through its windows. -/
theorem hitsOf_windows {rule : TangleRateLimitRule} {calls : List TangleRateLimiterCall}
    {since : UnixTimestamp} (hsince : ∀ call ∈ calls, since ≤ call.now)
    (hsorted : calls.Pairwise fun earlier later => earlier.now ≤ later.now)
    (hunder : ∀ call ∈ calls, call.Under key rule) :
    Windows rule (limiter.entries key) since (limiter.hitsOf key calls) := by
  induction calls generalizing limiter since with
  | nil => exact .done _ _
  | cons call calls ih =>
    have hnow := hsince call List.mem_cons_self
    have hlater := (List.pairwise_cons.1 hsorted).1
    have hrest (limiter' : TangleRateLimiter) :
        Windows rule (limiter'.entries key) call.now (limiter'.hitsOf key calls) :=
      ih hlater (List.pairwise_cons.1 hsorted).2 fun call' hmem =>
        hunder call' (List.mem_cons_of_mem _ hmem)
    cases call with
    | record key' rule' now =>
      by_cases hkey : key' = key
      · obtain ⟨rfl, hend⟩ := hunder _ List.mem_cons_self hkey
        subst hkey
        have hwindow := hrest (record key' rule' now limiter).2
        rw [entries_record] at hwindow
        rw [hitsOf_record, record_eq]
        rw [record_eq] at hwindow
        exact .hit hnow hend hwindow
      · have hwindow := hrest (record key' rule' now limiter).2
        rw [entries_record_of_ne hkey] at hwindow
        rw [hitsOf_record_of_ne hkey]
        exact hwindow.earlier hnow
    | retainActive now =>
      have hwindow := hrest (retainActive now limiter).2
      rcases limiter.entries_retainActive key now with ⟨entry, hentry, hover, hnone⟩ | heq
      · rw [hnone] at hwindow
        rw [hentry]
        exact .dropped hnow hover hwindow
      · rw [heq] at hwindow
        exact hwindow.earlier hnow

/-- The hits of a key come from its own calls. -/
theorem hitsOf_concerns {limiter' : TangleRateLimiter} {calls : List TangleRateLimiterCall}
    (hentry : limiter.entries key = limiter'.entries key) :
    limiter.hitsOf key calls =
      limiter'.hitsOf key (calls.filter (TangleRateLimiterCall.concerns key)) := by
  induction calls generalizing limiter limiter' with
  | nil => rfl
  | cons call calls ih =>
    cases call with
    | record key' rule now =>
      by_cases hkey : key' = key
      · subst hkey
        have hconcerns : TangleRateLimiterCall.concerns key' (.record key' rule now) = true :=
          decide_eq_true rfl
        rw [List.filter_cons_of_pos hconcerns, hitsOf_record, hitsOf_record]
        have hrest := @ih (record key' rule now limiter).2 (record key' rule now limiter').2
          (by rw [entries_record, entries_record, hentry])
        have hanswer : (record key' rule now limiter).1 = (record key' rule now limiter').1 := by
          rw [record_eq, record_eq, hentry]
        rw [hrest, hanswer]
      · have hconcerns : ¬ TangleRateLimiterCall.concerns key (.record key' rule now) = true :=
          fun h => hkey (of_decide_eq_true h)
        rw [List.filter_cons_of_neg hconcerns, hitsOf_record_of_ne hkey]
        exact ih ((entries_record_of_ne hkey rule now).trans hentry)
    | retainActive now =>
      have hconcerns : TangleRateLimiterCall.concerns key (.retainActive now) = true := rfl
      rw [List.filter_cons_of_pos hconcerns]
      refine @ih (retainActive now limiter).2 (retainActive now limiter').2 ?_
      exact congrArg (Option.filter fun entry => decide (now < entry.resetAt)) hentry

/-- A limiter has the windows of another, but for some that are over. -/
def WithoutOver (since : UnixTimestamp) (limiter limiter' : TangleRateLimiter) : Prop :=
  ∀ key, limiter.entries key = limiter'.entries key ∨
    limiter.entries key = none ∧ ∀ entry ∈ limiter'.entries key, entry.resetAt ≤ since

namespace WithoutOver

variable {limiter' : TangleRateLimiter} {since now : UnixTimestamp}

/-- A hit finds the same window, as one that is over is opened anew. -/
theorem window_eq (h : WithoutOver since limiter limiter') (hnow : since ≤ now)
    (rule : TangleRateLimitRule) (key : TangleRateLimitKey) :
    rule.window now (limiter.entries key) = rule.window now (limiter'.entries key) := by
  rcases h key with heq | ⟨hnone, hover⟩
  · rw [heq]
  · rw [hnone]
    rcases rule.window_cases now (limiter'.entries key) with ⟨entry, hentry, hopen, -⟩ | ⟨-, heq⟩
    · exact absurd (le_trans (hover entry hentry) hnow) (Nat.not_le.2 hopen)
    · exact heq.symm

/-- **An entry that is over may as well be gone**: a message is answered alike with it and without
it, and the two limiters stay alike. -/
theorem record (h : WithoutOver since limiter limiter') (hnow : since ≤ now)
    (rule : TangleRateLimitRule) (key : TangleRateLimitKey) :
    (record key rule now limiter).1 = (TangleRateLimiter.record key rule now limiter').1 ∧
      WithoutOver now (TangleRateLimiter.record key rule now limiter).2
        (TangleRateLimiter.record key rule now limiter').2 := by
  rw [record_eq, record_eq, h.window_eq hnow]
  refine ⟨rfl, fun key' => ?_⟩
  by_cases hkey : key' = key
  · subst hkey
    refine .inl ?_
    dsimp only
    rw [Function.update_self, Function.update_self]
  · dsimp only
    rw [Function.update_of_ne hkey, Function.update_of_ne hkey]
    rcases h key' with heq | ⟨hnone, hover⟩
    · exact .inl heq
    · exact .inr ⟨hnone, fun entry hentry => le_trans (hover entry hentry) hnow⟩

/-- Dropping the entries that are over keeps the limiter alike to one that has kept them. -/
theorem retainActive (h : WithoutOver since limiter limiter') (hnow : since ≤ now) :
    WithoutOver now (retainActive now limiter).2 limiter' := by
  intro key
  rcases limiter.entries_retainActive key now with ⟨entry, hentry, hover, hnone⟩ | heq
  · refine .inr ⟨hnone, fun entry' hentry' => ?_⟩
    rcases h key with heq | ⟨hnone', -⟩
    · rw [← heq, hentry] at hentry'
      cases hentry'
      exact hover
    · rw [hnone'] at hentry
      cases hentry
  · rw [heq]
    rcases h key with heq' | ⟨hnone, hover⟩
    · exact .inl heq'
    · exact .inr ⟨hnone, fun entry hentry => le_trans (hover entry hentry) hnow⟩

end WithoutOver

/-- Dropping the windows that are over changes no answer. -/
theorem run_isRecord {limiter' : TangleRateLimiter} {since : UnixTimestamp}
    {calls : List TangleRateLimiterCall} (hwithout : WithoutOver since limiter limiter')
    (hsince : ∀ call ∈ calls, since ≤ call.now)
    (hsorted : calls.Pairwise fun earlier later => earlier.now ≤ later.now) :
    limiter.run calls = limiter'.run (calls.filter TangleRateLimiterCall.isRecord) := by
  induction calls generalizing limiter limiter' since with
  | nil => rfl
  | cons call calls ih =>
    have hnow := hsince call List.mem_cons_self
    obtain ⟨hlater, hsorted'⟩ := List.pairwise_cons.1 hsorted
    cases call with
    | record key rule now =>
      have hnow : since ≤ now := hnow
      obtain ⟨hanswer, hrest⟩ := hwithout.record hnow rule key
      have hrecord : TangleRateLimiterCall.isRecord (.record key rule now) = true := rfl
      rw [List.filter_cons_of_pos hrecord, run, run, hanswer, ih hrest hlater hsorted']
    | retainActive now =>
      have hrecord : ¬ TangleRateLimiterCall.isRecord (.retainActive now) = true := nofun
      rw [List.filter_cons_of_neg hrecord, run]
      exact ih (hwithout.retainActive hnow) hlater hsorted'

end

/-- A refused hit leaves the limiter as it is. -/
theorem record_rejected {limiter : TangleRateLimiter} {key : TangleRateLimitKey}
    {rule : TangleRateLimitRule} {now : UnixTimestamp}
    (h : (record key rule now limiter).1.isAllowed = false) :
    (record key rule now limiter).2 = limiter := by
  rw [record_eq] at h ⊢
  have hhit := TangleRateLimitEntry.hit_rejected h
  rcases rule.window_cases now (limiter.entries key) with ⟨entry, hentry, -, heq⟩ | ⟨-, heq⟩
  · dsimp only
    rw [hhit, heq, ← hentry, Function.update_eq_self]
  · dsimp only at h
    rw [heq, TangleRateLimitEntry.new_hit] at h
    cases h

/-- A hit that finds no open window is taken. -/
theorem record_allowed {limiter : TangleRateLimiter} {key : TangleRateLimitKey}
    {now : UnixTimestamp} (rule : TangleRateLimitRule)
    (h : ∀ entry ∈ limiter.entries key, entry.resetAt ≤ now) :
    (record key rule now limiter).1.isAllowed = true := by
  rw [record_eq]
  dsimp only
  rcases rule.window_cases now (limiter.entries key) with ⟨entry, hentry, hopen, -⟩ | ⟨-, heq⟩
  · exact absurd (h entry hentry) (Nat.not_le.2 hopen)
  · rw [heq]
    exact TangleRateLimitEntry.new_hit now

/-- A key takes no more hits in a window than its rule says, and no more than twice as many in any
stretch of a window's length. A refused hit changes nothing, and the first hit at the end of a
window is taken. The answers to a key depend on its own calls alone, and on none that drop windows
that are over. -/
theorem run_bounds_windows (key : TangleRateLimitKey) (rule : TangleRateLimitRule)
    (calls : List TangleRateLimiterCall)
    (hsorted : calls.Pairwise fun earlier later => earlier.now ≤ later.now)
    (hunder : ∀ call ∈ calls, call.Under key rule) (hmax : rule.maxHits ≤ u64Max) :
    (∀ resetAt, (new.hitsOf key calls).countP (fun hit =>
      hit.decision.isAllowed && hit.decision.resetAt = resetAt) ≤ rule.maxHits) ∧
    (∀ start, (new.hitsOf key calls).countP (fun hit => hit.decision.isAllowed &&
      (start ≤ hit.now && hit.now < start + rule.windowSeconds)) ≤ 2 * rule.maxHits) ∧
    (∀ limiter now, (record key rule now limiter).1.isAllowed = false →
      (record key rule now limiter).2 = limiter) ∧
    (∀ limiter now, (∀ entry ∈ limiter.entries key, entry.resetAt ≤ now) →
      (record key rule now limiter).1.isAllowed = true) ∧
    ((new.hitsOf key calls).IsChain fun last next =>
      last.decision.resetAt ≤ next.now → next.decision.isAllowed = true) ∧
    (∀ limiter : TangleRateLimiter, limiter.hitsOf key calls =
      limiter.hitsOf key (calls.filter (TangleRateLimiterCall.concerns key))) ∧
    ∀ limiter : TangleRateLimiter,
      limiter.run calls = limiter.run (calls.filter TangleRateLimiterCall.isRecord) := by
  have hwindows : Windows rule none 0 (new.hitsOf key calls) :=
    @hitsOf_windows new key rule calls 0 (fun _ _ => Nat.zero_le _) hsorted hunder
  refine ⟨hwindows.countP_window hmax, hwindows.countP_interval hmax,
    fun _ _ h => record_rejected h, fun _ _ h => record_allowed rule h, hwindows.isChain,
    fun limiter => hitsOf_concerns rfl, fun limiter => ?_⟩
  have hwithout : WithoutOver 0 limiter limiter := fun _ => .inl rfl
  exact run_isRecord hwithout (fun _ _ => Nat.zero_le _) hsorted

end TangleRateLimiter

namespace Sample

/-- Two hits in ten seconds. -/
theorem ten_pos : 0 < 10 := by
  decide

/-- Two messages in ten seconds. -/
def twoInTen : TangleRateLimitRule := ⟨10, 2, ten_pos, by decide⟩

/-- A sender of the sample. -/
def peer : TangleRateLimitKey := .ip .req (.v4 1)

/-- A window is filled at its end, and the next at its start. -/
def peerCalls : List TangleRateLimiterCall :=
  [.record peer twoInTen 1, .record peer twoInTen 10, .record peer twoInTen 10,
    .record (.ip .req (.v4 2)) twoInTen 11, .retainActive 11, .record peer twoInTen 11,
    .record peer twoInTen 12, .record peer twoInTen 12]

example : (TangleRateLimiter.new.hitsOf peer peerCalls).map (·.decision) =
    [.allowed 1 11, .allowed 0 11, .rejected 11, .allowed 1 21, .allowed 0 21, .rejected 21] := by
  decide

/-- The theorem at a run of the sample: in the ten seconds from the third on no more than four
messages are let through. -/
theorem run_bounds_windows_peerCalls :
    (TangleRateLimiter.new.hitsOf peer peerCalls).countP (fun hit => hit.decision.isAllowed &&
      ((3 : Nat) ≤ hit.now && hit.now < (3 : Nat) + 10)) ≤ 2 * 2 := by
  have hsorted : peerCalls.Pairwise fun earlier later => earlier.now ≤ later.now := by
    simp [peerCalls, TangleRateLimiterCall.now]
  have hunder : ∀ call ∈ peerCalls, call.Under peer twoInTen := by
    simp [peerCalls, TangleRateLimiterCall.Under, twoInTen, u64Max]
  exact (TangleRateLimiter.run_bounds_windows peer twoInTen peerCalls hsorted hunder
    (by decide)).2.1 3

end Sample

end Tangle
