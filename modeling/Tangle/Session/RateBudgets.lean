import Tangle.Relay.PlainReads
import Tangle.Session.EventLimits

/-!
# Budgets of authors

Four of the keys that an event is recorded under name its author. As an event is recorded before its
signature is verified, every event that names an author spends the author's budget, whoever sends
it; an event that names another author does not. An author whose name is carried by no more events
than a window takes is refused nothing on account of these keys (`Spent`, `not_rejected`).
-/

namespace Tangle

open GroupEventView

/-! ## The hits of one key -/

/-- Whether a time is before the end of a window that opens at `start`. -/
def TangleRateLimitRule.covers (rule : TangleRateLimitRule) (start now : UnixTimestamp) : Bool :=
  now < start + rule.windowSeconds

/-- A window covers the seconds before its end. -/
theorem TangleRateLimitRule.covers_iff {rule : TangleRateLimitRule} {start now : UnixTimestamp} :
    rule.covers start now = true ↔ now < start + rule.windowSeconds :=
  decide_eq_true_iff

/-- No window of the rule is given more hits than it takes: after each of them, fewer come less than
a window's length later. -/
def TangleRateLimitRule.Within (rule : TangleRateLimitRule) (times : List UnixTimestamp) : Prop :=
  ∀ before start after, times = before ++ start :: after →
    after.countP (rule.covers start) < rule.maxHits

/-- When a clock does not go back, it is enough that no stretch of a window's length has more hits
than a window takes. -/
theorem TangleRateLimitRule.within_of_stretches {rule : TangleRateLimitRule}
    {times : List UnixTimestamp} (hsorted : times.Pairwise fun earlier later => earlier ≤ later)
    (hstretch : ∀ start, times.countP (fun now => start ≤ now && rule.covers start now) ≤
      rule.maxHits) : rule.Within times := by
  intro before start after heq
  subst heq
  have hcount := hstretch start
  have hlater : ∀ now ∈ after, start ≤ now :=
    (List.pairwise_cons.mp (List.pairwise_append.mp hsorted).2.1).1
  have hself : (start ≤ start && rule.covers start start) = true := by
    have hcovers : rule.covers start start = true :=
      rule.covers_iff.mpr (Nat.lt_add_of_pos_right rule.windowSeconds_pos)
    simp [hcovers]
  have hafter : after.countP (rule.covers start) =
      after.countP fun now => start ≤ now && rule.covers start now :=
    List.countP_congr fun now hmem => by simp [hlater now hmem]
  rw [List.countP_append, List.countP_cons, if_pos hself, ← hafter] at hcount
  omega

/-- What the open window of a key has taken, when the key has been given no hits but those at these
times: it opened at one of them, and has taken later ones since. -/
def Spent (key : TangleRateLimitKey) (rule : TangleRateLimitRule) (times : List UnixTimestamp)
    (limiter : TangleRateLimiter) : Prop :=
  ∀ entry ∈ limiter.entries key, ∃ before start after, times = before ++ start :: after ∧
    entry.resetAt ≤ start + rule.windowSeconds ∧
    entry.hits ≤ 1 + after.countP fun now => now < entry.resetAt

namespace Spent

variable {key : TangleRateLimitKey} {rule : TangleRateLimitRule} {times : List UnixTimestamp}
  {limiter : TangleRateLimiter} {now : UnixTimestamp}

/-- A new limiter has spent nothing of any rule. -/
theorem new : Spent key rule times .new := by
  intro entry hentry
  cases hentry

/-- A hit that was not taken is one more that might have been. -/
theorem more (h : Spent key rule times limiter) (now : UnixTimestamp) :
    Spent key rule (times ++ [now]) limiter := by
  intro entry hentry
  obtain ⟨before, start, after, rfl, hreset, hhits⟩ := h entry hentry
  refine ⟨before, start, after ++ [now], by simp, hreset, le_trans hhits ?_⟩
  rw [List.countP_append]
  exact Nat.add_le_add_left (Nat.le_add_right _ _) 1

/-- The hits of another key leave the window of this one alone. -/
theorem other {key' : TangleRateLimitKey} (h : Spent key rule times limiter) (hne : key' ≠ key)
    (rule' : TangleRateLimitRule) (now : UnixTimestamp) :
    Spent key rule times (TangleRateLimiter.record key' rule' now limiter).2 := by
  intro entry hentry
  rw [TangleRateLimiter.entries_record_of_ne hne] at hentry
  exact h entry hentry

/-- Dropping entries whose window is over spends nothing. -/
theorem retainActive (h : Spent key rule times limiter) (now : UnixTimestamp) :
    Spent key rule times (TangleRateLimiter.retainActive now limiter).2 := by
  intro entry hentry
  rcases TangleRateLimiter.entries_retainActive limiter key now with ⟨_, _, _, hnone⟩ | hsame
  · rw [hnone] at hentry
    cases hentry
  · rw [hsame] at hentry
    exact h entry hentry

/-- The window that takes a hit has taken no more than the hits before it. -/
theorem window (h : Spent key rule times limiter) (now : UnixTimestamp) :
    (rule.window now (limiter.entries key) = .new rule now) ∨
      ∃ before start after, times = before ++ start :: after ∧
        now < (rule.window now (limiter.entries key)).resetAt ∧
        (rule.window now (limiter.entries key)).resetAt ≤ start + rule.windowSeconds ∧
        (rule.window now (limiter.entries key)).hits ≤
          1 + after.countP fun time => time < (rule.window now (limiter.entries key)).resetAt := by
  rcases rule.window_cases now (limiter.entries key) with ⟨entry, hentry, hopen, heq⟩ | ⟨_, heq⟩
  · obtain ⟨before, start, after, htimes, hreset, hhits⟩ := h entry hentry
    rw [heq]
    exact .inr ⟨before, start, after, htimes, hopen, hreset, hhits⟩
  · exact .inl heq

/-- A hit counts for at most one. -/
theorem hits_hit_le_succ (entry : TangleRateLimitEntry) :
    (entry.hit rule).2.hits ≤ entry.hits + 1 := by
  unfold TangleRateLimitEntry.hit
  split
  · exact Nat.le_succ _
  · exact Nat.min_le_left _ _

/-- One message more spends at most one hit at its own second. -/
theorem record (h : Spent key rule times limiter) (now : UnixTimestamp) :
    Spent key rule (times ++ [now]) (TangleRateLimiter.record key rule now limiter).2 := by
  intro entry hentry
  rw [TangleRateLimiter.entries_record] at hentry
  cases hentry
  rw [(TangleRateLimitEntry.hit_resetAt rule _).2]
  have hhit := @hits_hit_le_succ rule (rule.window now (limiter.entries key))
  rcases h.window now with heq | ⟨before, start, after, htimes, hopen, hreset, hhits⟩
  · refine ⟨times, now, [], rfl, ?_, ?_⟩
    · rw [heq]
      exact Nat.min_le_left _ _
    · rw [heq] at hhit ⊢
      exact hhit
  · refine ⟨before, start, after ++ [now], by simp [htimes], hreset, le_trans hhit ?_⟩
    have hcounts : [now].countP
        (fun time => time < (rule.window now (limiter.entries key)).resetAt) = 1 := by
      simp [hopen]
    rw [List.countP_append, hcounts]
    omega

/-- Within the rule no hit is refused. -/
theorem allowed (h : Spent key rule times limiter) {later : List UnixTimestamp}
    (hwithin : rule.Within (times ++ now :: later)) :
    (TangleRateLimiter.record key rule now limiter).1.isAllowed = true := by
  rw [TangleRateLimiter.record_eq]
  dsimp only
  rcases h.window now with heq | ⟨before, start, after, rfl, hopen, hreset, hhits⟩
  · rw [heq]
    exact TangleRateLimitEntry.new_hit now
  · have hcount := hwithin before start (after ++ now :: later) (by simp)
    have hsoon : rule.covers start now = true := rule.covers_iff.mpr (lt_of_lt_of_le hopen hreset)
    rw [List.countP_append, List.countP_cons_of_pos hsoon] at hcount
    have hmono : after.countP
        (fun time => time < (rule.window now (limiter.entries key)).resetAt) ≤
          after.countP (rule.covers start) := by
      refine List.countP_mono_left fun time _ htime => ?_
      exact rule.covers_iff.mpr (lt_of_lt_of_le (of_decide_eq_true htime) hreset)
    have hroom : ¬ rule.maxHits ≤ (rule.window now (limiter.entries key)).hits := by omega
    unfold TangleRateLimitEntry.hit
    rw [if_neg hroom]
    rfl

end Spent

/-! ## The keys of one message -/

/-- Recording under one list of keys and then another, until a window is full. -/
theorem rateLimitOkAll_append (event : PocketEvent) (now : UnixTimestamp)
    (charges more : List RateLimitCharge) :
    rateLimitOkAll event now (charges ++ more) = (do
      match ← rateLimitOkAll event now charges with
      | some rejection => return some rejection
      | none => rateLimitOkAll event now more) := by
  induction charges with
  | nil => rfl
  | cons charge charges ih =>
    funext limiter
    rw [List.cons_append, rateLimitOkAll, rateLimitOkAll, ih]
    simp only [bind, StateT.bind]
    rcases rateLimitOkPocket event charge now limiter with ⟨rejection | _, limiter'⟩ <;> rfl

/-- One key of an event: it is recorded, and refused when its window is full. -/
theorem rateLimitOkPocket_eq (event : PocketEvent) (charge : RateLimitCharge) (now : UnixTimestamp)
    (limiter : TangleRateLimiter) :
    rateLimitOkPocket event charge now limiter =
      (match (TangleRateLimiter.record charge.key charge.rule now limiter).1 with
        | .allowed _ _ => none
        | .rejected resetAt => some ⟨event.id, charge.label, resetAt⟩,
        (TangleRateLimiter.record charge.key charge.rule now limiter).2) := by
  unfold rateLimitOkPocket
  simp only [bind, StateT.bind]
  rcases TangleRateLimiter.record charge.key charge.rule now limiter with ⟨_ | _, limiter'⟩ <;> rfl

/-- A key is the budget's only with its rule and label, and a refusal in the name of the budget
comes from its key only. -/
structure RateLimitCharge.Of (budget charge : RateLimitCharge) : Prop where
  same : charge.key = budget.key → charge = budget
  label : charge.label = budget.label → charge.key = budget.key

section
variable {budget : RateLimitCharge} {charges : List RateLimitCharge} {event : PocketEvent}
  {now : UnixTimestamp} {times : List UnixTimestamp} {limiter : TangleRateLimiter}

/-- Keys without the budget's leave it alone. -/
theorem Spent.rateLimitOkAll_others (h : Spent budget.key budget.rule times limiter)
    (hothers : ∀ charge ∈ charges, charge.key ≠ budget.key) :
    Spent budget.key budget.rule times (rateLimitOkAll event now charges limiter).2 := by
  induction charges generalizing limiter with
  | nil => exact h
  | cons charge charges ih =>
    have hspent := h.other (hothers charge List.mem_cons_self) charge.rule now
    rw [rateLimitOkAll]
    simp only [bind, StateT.bind, rateLimitOkPocket_eq]
    cases (TangleRateLimiter.record charge.key charge.rule now limiter).1 with
    | allowed remaining resetAt =>
      exact ih hspent fun other hmem => hothers other (List.mem_cons_of_mem _ hmem)
    | rejected resetAt => exact hspent

/-- A refusal names one of the keys. -/
theorem exists_charge_of_rejection {rejection : RateLimitRejection}
    (h : rejection ∈ (rateLimitOkAll event now charges limiter).1) :
    ∃ charge ∈ charges, charge.label = rejection.label := by
  induction charges generalizing limiter with
  | nil => cases h
  | cons charge charges ih =>
    rw [rateLimitOkAll] at h
    simp only [bind, StateT.bind, rateLimitOkPocket_eq] at h
    cases hdecision : (TangleRateLimiter.record charge.key charge.rule now limiter).1 with
    | allowed remaining resetAt =>
      rw [hdecision] at h
      obtain ⟨other, hmem, hlabel⟩ := ih h
      exact ⟨other, List.mem_cons_of_mem _ hmem, hlabel⟩
    | rejected resetAt =>
      rw [hdecision] at h
      cases h
      exact ⟨charge, List.mem_cons_self, rfl⟩

/-- Keys that have the budget's at most once spend one hit of it at most; within the rule nothing is
refused in its name. -/
theorem Spent.rateLimitOkAll (h : Spent budget.key budget.rule times limiter)
    (hof : ∀ charge ∈ charges, budget.Of charge)
    (honce : charges.Pairwise fun charge other => charge.key ≠ other.key) :
    Spent budget.key budget.rule (times ++ [now])
        (Tangle.rateLimitOkAll event now charges limiter).2 ∧
      ∀ later, budget.rule.Within (times ++ now :: later) →
        ∀ rejection ∈ (Tangle.rateLimitOkAll event now charges limiter).1,
          rejection.label ≠ budget.label := by
  induction charges generalizing limiter with
  | nil => exact ⟨h.more now, fun _ _ _ hrejection => nomatch hrejection⟩
  | cons charge charges ih =>
    obtain ⟨hdiffer, honce⟩ := List.pairwise_cons.mp honce
    have hofs : ∀ other ∈ charges, budget.Of other :=
      fun other hmem => hof other (List.mem_cons_of_mem _ hmem)
    rw [Tangle.rateLimitOkAll]
    simp only [bind, StateT.bind, rateLimitOkPocket_eq]
    by_cases hkey : charge.key = budget.key
    · -- the budget's own key: no later one is
      have hsame := (hof charge List.mem_cons_self).same hkey
      subst hsame
      have hspent := h.record now
      have hallowed := fun later => @Spent.allowed _ _ _ _ now h later
      cases hdecision : (TangleRateLimiter.record charge.key charge.rule now limiter).1 with
      | allowed remaining resetAt =>
        refine ⟨hspent.rateLimitOkAll_others fun other hmem => (hdiffer other hmem).symm,
          fun _ _ rejection hrejection hlabel => ?_⟩
        obtain ⟨other, hmem, hother⟩ := exists_charge_of_rejection hrejection
        exact hdiffer other hmem ((hofs other hmem).label (hother.trans hlabel)).symm
      | rejected resetAt =>
        refine ⟨hspent, fun later hwithin => ?_⟩
        have hrefused := hallowed later hwithin
        rw [hdecision] at hrefused
        cases hrefused
    · have hspent := h.other hkey charge.rule now
      have hrest := ih hspent hofs honce
      cases (TangleRateLimiter.record charge.key charge.rule now limiter).1 with
      | allowed remaining resetAt => exact hrest
      | rejected resetAt =>
        refine ⟨hspent.more now, fun _ _ rejection hrejection hlabel => ?_⟩
        cases hrejection
        exact hkey ((hof charge List.mem_cons_self).label hlabel)

end

/-! ## The budgets of an author -/

/-- What an author has a budget for: events, events of groups, joins of one group, and
authentications. -/
inductive RateBudget where
  | event | groupWrite | join (groupId : GroupId) | auth
deriving DecidableEq

namespace RateBudget

/-- The charge by which a budget is spent: its key and its rule. -/
def charge (rules : TangleRateLimitConfig) (pubkey : PublicKeyHex) : RateBudget → RateLimitCharge
  | event => ⟨.pubkey .event pubkey, rules.event.perPubkey, .eventPubkey⟩
  | groupWrite => ⟨.pubkey .groupWrite pubkey, rules.group.writePerPubkey, .groupPubkey⟩
  | join groupId => ⟨.joinFlow groupId pubkey, rules.group.joinFlow, .groupJoin⟩
  | auth => ⟨.pubkey .auth pubkey, rules.auth.perPubkey, .authPubkey⟩

/-- Whether a message is for the budget of the author that it names. -/
def uses (config : GroupRuntimeConfig) : RateBudget → RuntimeClientMessage → Bool
  | event, .event _ => true
  | groupWrite, .event carried => (writtenGroup carried config).isSome
  | join groupId, .event carried =>
    kindU32 carried = kindGroupJoinRequest && writtenGroup carried config = some groupId
  | auth, .auth _ => true
  | _, _ => false

end RateBudget

/-- Whether a message carries the key as its author. Its signature need not verify. -/
def RuntimeClientMessage.names (pubkey : PublicKeyHex) : RuntimeClientMessage → Bool
  | .event carried | .auth carried => carried.pubkey = pubkey
  | .req _ _ _ | .count _ _ _ => false

section
variable {rules : TangleRateLimitConfig} {config : GroupRuntimeConfig} {event : PocketEvent}
  {context : TangleClientRateLimitContext} {charge : RateLimitCharge} {budget : RateBudget}
  {pubkey : PublicKeyHex}

/-- The keys of an event. -/
def allEventCharges (rules : TangleRateLimitConfig) (config : GroupRuntimeConfig)
    (event : PocketEvent) (context : TangleClientRateLimitContext) : List RateLimitCharge :=
  eventCharges rules event context ++ groupWriteCharges rules event context config

/-- The keys of an authentication, if it fails. -/
def allAuthCharges (rules : TangleRateLimitConfig) (event : PocketEvent)
    (context : TangleClientRateLimitContext) : List RateLimitCharge :=
  authAttemptCharges rules event context ++ authFailureCharges rules event context

/-- No two charges of an EVENT message go to the same entry. -/
theorem pairwise_allEventCharges :
    (allEventCharges rules config event context).Pairwise fun charge other =>
      charge.key ≠ other.key := by
  unfold allEventCharges eventCharges groupWriteCharges joinCharges writeCharges
  by_cases hjoin : kindU32 event = kindGroupJoinRequest <;> cases context.peerIp <;>
    cases writtenGroup event config <;> simp [hjoin]

/-- No two charges of an AUTH message go to the same entry. -/
theorem pairwise_allAuthCharges :
    (allAuthCharges rules event context).Pairwise fun charge other => charge.key ≠ other.key := by
  unfold allAuthCharges authAttemptCharges authFailureCharges
  cases context.peerIp <;> simp

/-- The keys that an event of an author is recorded under, against a budget that it uses. -/
theorem of_mem_allEventCharges (h : charge ∈ allEventCharges rules config event context)
    (huses : budget.uses config (.event event) = true) :
    (budget.charge rules event.pubkey).Of charge := by
  unfold allEventCharges eventCharges groupWriteCharges joinCharges writeCharges at h
  cases hgroup : writtenGroup event config with
  | none =>
    simp only [hgroup, List.append_nil, List.mem_append, List.mem_map, List.mem_cons,
      List.not_mem_nil, or_false] at h
    rcases h with ⟨ip, _, rfl⟩ | rfl | rfl <;> cases budget <;>
      constructor <;> simp_all [RateBudget.charge, RateBudget.uses]
  | some groupId =>
    simp only [hgroup, List.mem_append, List.mem_map, List.mem_cons, List.not_mem_nil, or_false,
      List.mem_ite_nil_right] at h
    rcases h with (⟨ip, _, rfl⟩ | rfl | rfl) | ⟨_, ⟨ip, _, rfl⟩ | rfl⟩ | ⟨ip, _,
      rfl⟩ | rfl | rfl | rfl
      <;> cases budget <;> constructor <;> simp_all [RateBudget.charge, RateBudget.uses]

/-- An event is recorded under the key of a budget only when it carries the author's name and uses
the budget. -/
theorem uses_of_mem_allEventCharges (h : charge ∈ allEventCharges rules config event context)
    (hkey : charge.key = (budget.charge rules pubkey).key) :
    budget.uses config (.event event) = true ∧ event.pubkey = pubkey := by
  unfold allEventCharges eventCharges groupWriteCharges joinCharges writeCharges at h
  cases hgroup : writtenGroup event config with
  | none =>
    simp only [hgroup, List.append_nil, List.mem_append, List.mem_map, List.mem_cons,
      List.not_mem_nil, or_false] at h
    rcases h with ⟨ip, _, rfl⟩ | rfl | rfl <;> cases budget <;>
      simp_all [RateBudget.charge, RateBudget.uses]
  | some groupId =>
    simp only [hgroup, List.mem_append, List.mem_map, List.mem_cons, List.not_mem_nil, or_false,
      List.mem_ite_nil_right] at h
    rcases h with (⟨ip, _, rfl⟩ | rfl | rfl) | ⟨_, ⟨ip, _, rfl⟩ | rfl⟩ | ⟨ip, _,
      rfl⟩ | rfl | rfl | rfl
      <;> cases budget <;> simp_all [RateBudget.charge, RateBudget.uses]

/-- An AUTH message that uses a budget makes that budget's charge with the sender's key. -/
theorem of_mem_allAuthCharges (h : charge ∈ allAuthCharges rules event context)
    (huses : budget.uses config (.auth event) = true) :
    (budget.charge rules event.pubkey).Of charge := by
  simp only [allAuthCharges, authAttemptCharges, authFailureCharges, List.mem_append, List.mem_map,
    List.mem_cons, List.not_mem_nil, or_false] at h
  rcases h with (⟨ip, _, rfl⟩ | rfl) | ⟨ip, _, rfl⟩ | rfl <;> cases budget <;>
    constructor <;> simp_all [RateBudget.charge, RateBudget.uses]

/-- A charge of an AUTH message made to a budget's entry is made by the key of that budget, and the
message uses it. -/
theorem uses_of_mem_allAuthCharges (h : charge ∈ allAuthCharges rules event context)
    (hkey : charge.key = (budget.charge rules pubkey).key) :
    budget.uses config (.auth event) = true ∧ event.pubkey = pubkey := by
  simp only [allAuthCharges, authAttemptCharges, authFailureCharges, List.mem_append, List.mem_map,
    List.mem_cons, List.not_mem_nil, or_false] at h
  rcases h with (⟨ip, _, rfl⟩ | rfl) | ⟨ip, _, rfl⟩ | rfl <;> cases budget <;>
    simp_all [RateBudget.charge, RateBudget.uses]

end

/-! ## Runs -/

/-- An event was recorded under the keys of a list, up to a full window, and is refused for no other
reason of the limiter's. -/
structure Recorded (event : PocketEvent) (now : UnixTimestamp) (charges : List RateLimitCharge)
    (limiter after : TangleRateLimiter) (answer : ClientAnswer) : Prop where
  leaves : after = (rateLimitOkAll event now charges limiter).2
  rejected : ∀ rejection, answer = .rateLimited rejection →
    rejection ∈ (rateLimitOkAll event now charges limiter).1

section
variable {σ : Type} {runtime : RelayRuntimeShared σ} {world : RuntimeWorld σ} {event : PocketEvent}
  {context : TangleClientRateLimitContext} {now : UnixTimestamp}

/-- When no charge of a list is over its rule, the charges behind it are made as if the list had
been made first. -/
theorem recorded_append {charges more : List RateLimitCharge} {limiter : TangleRateLimiter}
    (h : (rateLimitOkAll event now charges limiter).1 = none) :
    rateLimitOkAll event now (charges ++ more) limiter =
      rateLimitOkAll event now more (rateLimitOkAll event now charges limiter).2 := by
  rw [rateLimitOkAll_append]
  simp only [bind, StateT.bind]
  rcases hrun : rateLimitOkAll event now charges limiter with ⟨rejection | _, limiter'⟩
  · rfl
  · rw [hrun] at h
    cases h

/-- Admitting an event and handing it to the relay leaves the limiter alone. -/
theorem admitPocketEvent_limiter (eventContext : RelayEventContext) (auth : GroupAuthContext) :
    (world.admitPocketEvent runtime event eventContext auth context now).2.rateLimiter =
        world.rateLimiter ∧
      ∀ rejection, (world.admitPocketEvent runtime event eventContext auth context now).1 ≠
        .rateLimited rejection := by
  unfold RuntimeWorld.admitPocketEvent
  split
  · exact ⟨rfl, fun _ h => nomatch h⟩
  · unfold RuntimeWorld.handlePocketEvent
    split
    · exact ⟨rfl, fun _ h => nomatch h⟩
    · exact ⟨rfl, fun _ h => nomatch h⟩

/-- **An EVENT message makes a first part of its charges**: those up to the one that is over its
rule, whatever the message goes on to do. -/
theorem recorded_handleEvent (auth : GroupAuthContext) :
    ∃ charges, charges <+: allEventCharges runtime.rateLimits runtime.groups event context ∧
      Recorded event now charges world.rateLimiter
        (world.handleEvent runtime event auth context now).2.rateLimiter
        (world.handleEvent runtime event auth context now).1 := by
  unfold RuntimeWorld.handleEvent
  split
  · exact ⟨[], List.nil_prefix, rfl, fun _ h => nomatch h⟩
  split
  · next rejection limiter hrun =>
    refine ⟨eventCharges runtime.rateLimits event context, List.prefix_append _ _, ?_, ?_⟩
    · exact (congrArg Prod.snd hrun).symm
    · intro found hfound
      cases hfound
      exact congrArg Prod.fst hrun
  · next limiter hrun =>
    have hnone : (rateLimitOkAll event now (eventCharges runtime.rateLimits event context)
        world.rateLimiter).1 = none := congrArg Prod.fst hrun
    have hlimiter : (rateLimitOkAll event now (eventCharges runtime.rateLimits event context)
        world.rateLimiter).2 = limiter := congrArg Prod.snd hrun
    have happend := @recorded_append event now _
      (groupWriteCharges runtime.rateLimits event context runtime.groups) _ hnone
    rw [hlimiter] at happend
    refine ⟨_, List.prefix_refl _, ?_⟩
    split
    · next rejection limiter' hwrite =>
      have hboth := happend.trans hwrite
      refine ⟨(congrArg Prod.snd hboth).symm, fun found hfound => ?_⟩
      cases hfound
      exact congrArg Prod.fst hboth
    · next limiter' hwrite =>
      have hboth := happend.trans hwrite
      obtain ⟨hsame, hanswer⟩ := @admitPocketEvent_limiter σ runtime
        { world with rateLimiter := limiter' } event context now _ auth
      exact ⟨hsame.trans (congrArg Prod.snd hboth).symm,
        fun found hfound => absurd hfound (hanswer _)⟩

/-- The same for an AUTH message, whose charges after a failed check belong to the list as well. -/
theorem recorded_handleAuth (connection : Nat) :
    ∃ charges, charges <+: allAuthCharges runtime.rateLimits event context ∧
      Recorded event now charges world.rateLimiter
        (world.handleAuth runtime event connection context now).2.rateLimiter
        (world.handleAuth runtime event connection context now).1 := by
  unfold RuntimeWorld.handleAuth
  dsimp only
  split
  · exact ⟨[], List.nil_prefix, rfl, fun _ h => nomatch h⟩
  split
  · next rejection limiter hrun =>
    refine ⟨authAttemptCharges runtime.rateLimits event context, List.prefix_append _ _, ?_, ?_⟩
    · exact (congrArg Prod.snd hrun).symm
    · intro found hfound
      cases hfound
      exact congrArg Prod.fst hrun
  · next limiter hrun =>
    have hnone : (rateLimitOkAll event now (authAttemptCharges runtime.rateLimits event context)
        world.rateLimiter).1 = none := congrArg Prod.fst hrun
    have hlimiter : (rateLimitOkAll event now (authAttemptCharges runtime.rateLimits event context)
        world.rateLimiter).2 = limiter := congrArg Prod.snd hrun
    split
    · exact ⟨_, List.prefix_append _ _, hlimiter.symm, fun _ h => nomatch h⟩
    · have happend := @recorded_append event now _
        (authFailureCharges runtime.rateLimits event context) _ hnone
      rw [hlimiter] at happend
      refine ⟨_, List.prefix_refl _, ?_⟩
      split
      · next rejection limiter' hfailed =>
        have hboth := happend.trans hfailed
        refine ⟨(congrArg Prod.snd hboth).symm, fun found hfound => ?_⟩
        cases hfound
        exact congrArg Prod.fst hboth
      · next limiter' hfailed =>
        have hboth := happend.trans hfailed
        exact ⟨(congrArg Prod.snd hboth).symm, fun _ h => nomatch h⟩

/-- A request is recorded under keys that are no event's. -/
theorem Spent.rateLimitAll {key : TangleRateLimitKey} {rule : TangleRateLimitRule}
    {times : List UnixTimestamp} {limiter : TangleRateLimiter} {subscriptionId : SubscriptionId}
    {label : String} {keys : List (String × TangleRateLimitKey × TangleRateLimitRule)}
    (h : Spent key rule times limiter) (hothers : ∀ entry ∈ keys, entry.2.1 ≠ key) :
    Spent key rule times (rateLimitAll subscriptionId label now keys limiter).2 := by
  induction keys generalizing limiter with
  | nil => exact h
  | cons entry keys ih =>
    obtain ⟨dimension, key', rule'⟩ := entry
    have hspent := h.other (hothers _ List.mem_cons_self) rule' now
    rw [Tangle.rateLimitAll]
    unfold rateLimitClosed
    simp only [bind, StateT.bind]
    rcases hrecord : TangleRateLimiter.record key' rule' now limiter with ⟨_ | _, limiter'⟩
    · rw [hrecord] at hspent
      exact ih hspent fun other hmem => hothers other (List.mem_cons_of_mem _ hmem)
    · rw [hrecord] at hspent
      exact hspent

/-- A query spends at most one hit of a budget, and none of one that it does not use. -/
theorem Spent.limitQuery {budget : RateBudget} {pubkey : PublicKeyHex} {times : List UnixTimestamp}
    {scope : TangleRateLimitScope} {label : String} {rules : TangleQueryRateLimitConfig}
    {classification : TangleQueryClassification} {refused : Bool} {subscriptionId : SubscriptionId}
    {filters : List PocketFilter} {searchPresent : Bool} {auth : GroupAuthContext}
    (h : Spent (budget.charge runtime.rateLimits pubkey).key
      (budget.charge runtime.rateLimits pubkey).rule times world.rateLimiter)
    (hscope : scope = .req ∨ scope = .count) :
    Spent (budget.charge runtime.rateLimits pubkey).key
      (budget.charge runtime.rateLimits pubkey).rule times
      (world.limitQuery runtime scope label rules classification refused subscriptionId filters
        searchPresent auth context now).rateLimiter := by
  unfold RuntimeWorld.limitQuery
  split
  · split
    · exact h
    · refine h.rateLimitAll fun entry hmem => ?_
      unfold queryRateLimitKeys at hmem
      simp only [List.mem_append, List.mem_map, List.mem_ite_nil_right, List.mem_singleton] at hmem
      rcases hscope with rfl | rfl <;>
        rcases hmem with (((((⟨_, _, rfl⟩ | ⟨_, _, rfl⟩) | ⟨_, _, rfl⟩) | ⟨_, _, rfl⟩) |
          ⟨_, _, rfl⟩) | ⟨_, rfl⟩) <;> cases budget <;> simp [RateBudget.charge]
  · exact h

/-- **One message.** A message that uses the budget of its author spends one hit of it at most, and
within the rule is not refused in its name; other messages spend nothing. -/
theorem Spent.handleClientMessage {budget : RateBudget} {pubkey : PublicKeyHex}
    {times : List UnixTimestamp} {arrival : ClientArrival}
    (h : Spent (budget.charge runtime.rateLimits pubkey).key
      (budget.charge runtime.rateLimits pubkey).rule times world.rateLimiter) :
    if (budget.uses runtime.groups arrival.message && arrival.message.names pubkey) = true then
      Spent (budget.charge runtime.rateLimits pubkey).key
          (budget.charge runtime.rateLimits pubkey).rule (times ++ [arrival.now])
          (world.handleClientMessage runtime arrival).2.rateLimiter ∧
        ∀ later, (budget.charge runtime.rateLimits pubkey).rule.Within
            (times ++ arrival.now :: later) →
          ∀ rejection, (world.handleClientMessage runtime arrival).1 = .rateLimited rejection →
            rejection.label ≠ (budget.charge runtime.rateLimits pubkey).label
    else
      Spent (budget.charge runtime.rateLimits pubkey).key
        (budget.charge runtime.rateLimits pubkey).rule times
        (world.handleClientMessage runtime arrival).2.rateLimiter := by
  obtain ⟨connection, context, now, message⟩ := arrival
  -- what recording a message under its keys does to the budget
  have hrecorded : ∀ {event all charges limiter answer},
      charges <+: all → Recorded event now charges world.rateLimiter limiter answer →
      all.Pairwise (fun charge other => charge.key ≠ other.key) →
      (budget.uses runtime.groups message = true → message.names pubkey = true →
        ∀ charge ∈ all, (budget.charge runtime.rateLimits pubkey).Of charge) →
      (∀ charge ∈ all, charge.key = (budget.charge runtime.rateLimits pubkey).key →
        budget.uses runtime.groups message = true ∧ message.names pubkey = true) →
      if (budget.uses runtime.groups message && message.names pubkey) = true then
        Spent (budget.charge runtime.rateLimits pubkey).key
            (budget.charge runtime.rateLimits pubkey).rule (times ++ [now]) limiter ∧
          ∀ later, (budget.charge runtime.rateLimits pubkey).rule.Within (times ++ now :: later) →
            ∀ rejection, answer = .rateLimited rejection →
              rejection.label ≠ (budget.charge runtime.rateLimits pubkey).label
      else
        Spent (budget.charge runtime.rateLimits pubkey).key
          (budget.charge runtime.rateLimits pubkey).rule times limiter := by
    intro event all charges limiter answer hprefix hrec honce hof huses
    have hsub := hprefix.sublist
    rw [hrec.leaves]
    split
    · next hspends =>
      obtain ⟨huse, hname⟩ := Bool.and_eq_true_iff.mp hspends
      obtain ⟨hspent, hrejects⟩ := @Spent.rateLimitOkAll _ charges event now times _ h
        (fun charge hmem => hof huse hname charge (hsub.subset hmem)) (honce.sublist hsub)
      exact ⟨hspent, fun later hwithin rejection hanswer =>
        hrejects later hwithin rejection (hrec.rejected rejection hanswer)⟩
    · next hspares =>
      refine h.rateLimitOkAll_others fun charge hmem hkey => hspares ?_
      obtain ⟨huse, hname⟩ := huses charge (hsub.subset hmem) hkey
      rw [huse, hname]
      rfl
  cases message with
  | event event =>
    obtain ⟨charges, hprefix, hrec⟩ := @recorded_handleEvent σ runtime world event context now
      ⟨(world.auths connection).authenticatedPubkeys⟩
    refine hrecorded hprefix hrec pairwise_allEventCharges (fun huse hname charge hmem => ?_)
      fun charge hmem hkey => ?_
    · cases of_decide_eq_true hname
      exact of_mem_allEventCharges hmem huse
    · obtain ⟨huse, hname⟩ := uses_of_mem_allEventCharges hmem hkey
      exact ⟨huse, decide_eq_true hname⟩
  | auth event =>
    obtain ⟨charges, hprefix, hrec⟩ := @recorded_handleAuth σ runtime world event context now
      connection
    refine hrecorded hprefix hrec pairwise_allAuthCharges (fun huse hname charge hmem => ?_)
      fun charge hmem hkey => ?_
    · cases of_decide_eq_true hname
      exact of_mem_allAuthCharges hmem huse
    · obtain ⟨huse, hname⟩ := uses_of_mem_allAuthCharges hmem hkey
      exact ⟨huse, decide_eq_true hname⟩
  | req subscriptionId filters searchPresent =>
    rw [if_neg (by cases budget <;> exact Bool.false_ne_true)]
    exact h.limitQuery (.inl rfl)
  | count subscriptionId filters searchPresent =>
    rw [if_neg (by cases budget <;> exact Bool.false_ne_true)]
    exact h.limitQuery (.inr rfl)

/-- The times of the messages that carry a key as their author and use the author's budget. -/
def RateBudget.times (config : GroupRuntimeConfig) (pubkey : PublicKeyHex) (budget : RateBudget) :
    List RuntimeCall → List UnixTimestamp
  | [] => []
  | .message arrival :: calls =>
    if (budget.uses config arrival.message && arrival.message.names pubkey) = true then
      arrival.now :: budget.times config pubkey calls
    else
      budget.times config pubkey calls
  | .retainActive _ :: calls | .session _ _ :: calls => budget.times config pubkey calls

/-- What a run spends of a budget is at most one hit for each call that uses it, at the second of
that call. By induction on the calls. -/
theorem Spent.run {budget : RateBudget} {pubkey : PublicKeyHex} {calls : List RuntimeCall}
    {times : List UnixTimestamp}
    (h : Spent (budget.charge runtime.rateLimits pubkey).key
      (budget.charge runtime.rateLimits pubkey).rule times world.rateLimiter)
    (hwithin : (budget.charge runtime.rateLimits pubkey).rule.Within
      (times ++ budget.times runtime.groups pubkey calls)) :
    ∀ answered ∈ world.run runtime calls, budget.uses runtime.groups answered.1.message = true →
      answered.1.message.names pubkey = true → ∀ rejection, answered.2 = .rateLimited rejection →
        rejection.label ≠ (budget.charge runtime.rateLimits pubkey).label := by
  induction calls generalizing world times with
  | nil => exact fun _ hmem => nomatch hmem
  | cons call calls ih =>
    cases call with
    | message arrival =>
      have hone := @Spent.handleClientMessage σ runtime world budget pubkey times arrival h
      rw [RateBudget.times] at hwithin
      intro answered hmem huse hname
      split at hone
      · next hspends =>
        rw [if_pos hspends] at hwithin
        rcases List.mem_cons.mp hmem with rfl | hmem
        · exact hone.2 _ hwithin
        · exact ih hone.1 (by simpa using hwithin) answered hmem huse hname
      · next hspares =>
        rw [if_neg hspares] at hwithin
        rcases List.mem_cons.mp hmem with rfl | hmem
        · exact absurd (Bool.and_eq_true_iff.mpr ⟨huse, hname⟩) hspares
        · exact ih hone hwithin answered hmem huse hname
    | retainActive now => exact ih (h.retainActive now) hwithin
    | session connection auth => exact ih h hwithin

/-- **Every run.** An author whose budget is used within its rule by the messages that carry the
author's key, whoever sends them, is refused nothing in the name of the budget. -/
theorem author_not_rejected (runtime : RelayRuntimeShared σ) (world : RuntimeWorld σ)
    (calls : List RuntimeCall) (pubkey : PublicKeyHex) (budget : RateBudget)
    (hnew : world.rateLimiter = .new)
    (hwithin : (budget.charge runtime.rateLimits pubkey).rule.Within
      (budget.times runtime.groups pubkey calls)) :
    ∀ answered ∈ world.run runtime calls, budget.uses runtime.groups answered.1.message = true →
      answered.1.message.names pubkey = true → ∀ rejection, answered.2 = .rateLimited rejection →
        rejection.label ≠ (budget.charge runtime.rateLimits pubkey).label := by
  have hspent : Spent (budget.charge runtime.rateLimits pubkey).key
      (budget.charge runtime.rateLimits pubkey).rule [] world.rateLimiter := by
    rw [hnew]
    exact .new
  exact hspent.run hwithin

end

/-! ## An author whose name is used -/

namespace Sample

/-- The texts that tags stand for, read back from their bytes. -/
def textsOf (tags : List (List TagValue)) : List (List Text) :=
  tags.map fun tag => tag.map fun value => match value with
    | .text value => value
    | .raw _ => []

/-- The tags that stand for texts are read back. -/
theorem textsOf_toTagValues (tags : List (List Text)) : textsOf (toTagValues tags) = tags := by
  simp [textsOf, toTagValues, Function.comp_def]

/-- A library that verifies the id of an event. -/
def idPocket : PocketTypes :=
  { pocket with
    verify := fun event =>
      if event.id = eventId event.kind event.createdAt (textsOf event.tags) then
        .ok ()
      else
        .error "event id does not match" }

/-- The store's own form of an event, with the event itself in its place. -/
theorem idPocket_lawful : idPocket.Lawful codec where
  ownedTags_iff := pocket_lawful.ownedTags_iff
  signNew_ok := by
    intro secret pubkey kind tags createdAt content hkey _
    cases hkey
    refine ⟨_, rfl, (), if_pos ?_⟩
    dsimp only
    rw [textsOf_toTagValues]

/-- A relay that takes every event without a group. -/
def verifyingRelay : Relay where
  pocket := idPocket
  codec := codec
  lawful := idPocket_lawful
  db := plainDb
  syncPolicy := .flushOnWrite
  limits := ⟨2000, 65535⟩

/-- A hundred is a bound that a rule may have. -/
theorem hundred_pos : 0 < 100 := by
  decide

/-- A hundred hits in ten seconds. -/
def hundredInTen : TangleRateLimitRule := ⟨10, 100, ten_pos, hundred_pos⟩

/-- The rules for queries of the sample. -/
def queryRules : TangleQueryRateLimitConfig :=
  ⟨hundredInTen, hundredInTen, hundredInTen, hundredInTen, hundredInTen, hundredInTen⟩

/-- A runtime where an author has two events in ten seconds. -/
def twoEventsRuntime : RelayRuntimeShared Unit where
  relay := verifyingRelay
  reads := plainReads
  groups := config
  rateLimits := ⟨⟨hundredInTen, hundredInTen, hundredInTen, hundredInTen⟩,
    ⟨hundredInTen, twoInTen, hundredInTen⟩,
    ⟨hundredInTen, hundredInTen, hundredInTen, hundredInTen, hundredInTen, hundredInTen⟩,
    queryRules, queryRules⟩
  requestLimits := ⟨64, 10, 100, 1000, 500, 100⟩
  admitEvent _ := pure .accept

/-- A relay that has seen no message. -/
def newWorld : RuntimeWorld Unit :=
  ⟨.new, none, .empty, fun _ => newSession, ()⟩

/-- A note of the member. -/
def signedNote : PocketEvent :=
  .ofTexts (eventId 1 3 []) member 1 3 []

/-- A note in the member's name, whose id is another's. -/
def forgedNote : PocketEvent :=
  .ofTexts (eventId 2 3 []) member 1 3 []

/-- One connection sends one event. -/
def sends (connection : Nat) (now : UnixTimestamp) (event : PocketEvent) : RuntimeCall :=
  .message ⟨connection, ⟨none, some connection⟩, now, .event event⟩

end Sample

open Sample in
/-- Two forged notes spend the budget of their supposed author, whose own note is then refused: the
limits count an event by its key before the signature is looked at. -/
theorem forged_notes_spend_budget :
    (idPocket.verify signedNote).Succeeds ∧ ¬ (idPocket.verify forgedNote).Succeeds ∧
      twoInTen.Within [3] ∧
      (newWorld.run twoEventsRuntime
        [sends 1 1 forgedNote, sends 1 2 forgedNote, sends 2 3 signedNote]).map (·.2) =
        [.replies (.ok [.ok forgedNote.id false "invalid: event id does not match"]),
          .replies (.ok [.ok forgedNote.id false "invalid: event id does not match"]),
          .rateLimited ⟨signedNote.id, .eventPubkey, 11⟩] := by
  refine ⟨by decide +kernel, by decide +kernel, fun before start after heq => ?_, by decide +kernel⟩
  have hlength := congrArg List.length heq
  have hempty : after = [] := by
    rw [← List.length_eq_zero_iff]
    simp only [List.length_append, List.length_cons, List.length_nil] at hlength
    omega
  subst hempty
  exact twoInTen.maxHits_pos

open Sample in
/-- The theorem at an author under a rule of two events in ten seconds, of which a forged note has
spent one: the author's own note is not refused. -/
theorem author_not_rejected_note :
    twoInTen.Within [1, 3] ∧
    ∀ answered ∈ newWorld.run twoEventsRuntime [sends 1 1 forgedNote, sends 2 3 signedNote],
      RateBudget.event.uses config answered.1.message = true →
      answered.1.message.names member = true → ∀ rejection, answered.2 = .rateLimited rejection →
        rejection.label ≠ .eventPubkey := by
  have hsorted : ([1, 3] : List UnixTimestamp).Pairwise fun earlier later => earlier ≤ later := by
    decide
  have hwithin : twoInTen.Within [1, 3] := TangleRateLimitRule.within_of_stretches hsorted
    fun _ => List.countP_le_length
  exact ⟨hwithin, author_not_rejected twoEventsRuntime newWorld
    [sends 1 1 forgedNote, sends 2 3 signedNote] member .event rfl hwithin⟩

end Tangle
