import Mathlib.Data.List.Basic
import Mathlib.Data.List.Lattice

/-!
# Channels

A broadcast channel keeps the last values that were sent, as many as it has slots, and each receiver
stands at a position of its own. A receiver that the channel has overtaken is told how many values
it has missed. These are the laws of such a channel (`BroadcastLaws`), and from them it follows that
as long as a receiver has not been told so, what it has received is all that was sent since it was
made, in order (`Following.recv_eq`). `Broadcast` is a channel that has them.

A bounded queue refuses a value when it is full. What was taken out of it and what it holds are all
that it has accepted (`QueueLaws`). `BoundedQueue` is a queue that has these laws.
-/

namespace Tangle

variable {α : Type}

/-! ## Laws -/

/-- What a receiver is given. -/
inductive Received (α : Type) where
  | value (value : α)
  | lagged (skipped : Nat)
  | empty
deriving DecidableEq

/-- The laws of a broadcast channel. `Carries` says which values were sent through it: a receiver
that is made now stands behind them, and one that has got the first of them is given the next one,
or is told how many of those that it has not got are gone, or there is none. -/
structure BroadcastLaws {C : Type} (slots sent : C → Nat) (send : C → α → C)
    (recv : C → Nat → Received α × Nat) (Carries : C → List α → Prop) : Prop where
  sent_eq : ∀ {channel values}, Carries channel values → sent channel = values.length
  carries_send : ∀ {channel values value},
    Carries channel values → Carries (send channel value) (values ++ [value])
  slots_send : ∀ {channel value}, slots (send channel value) = slots channel
  recv_eq : ∀ {channel before rest}, Carries channel (before ++ rest) →
    recv channel before.length =
      if rest.length ≤ slots channel then
        match rest with
        | [] => (.empty, before.length)
        | value :: _ => (.value value, before.length + 1)
      else
        (.lagged (rest.length - slots channel), before.length + (rest.length - slots channel))

/-- The laws of a bounded queue: what is sent goes behind what it holds, unless it is full, and what
is received is the first that it holds. -/
structure QueueLaws {Q : Type} (capacity : Q → Nat) (pending : Q → List α)
    (trySend : Q → α → Option Q) (recv? : Q → Option (α × Q)) : Prop where
  trySend_eq_some : ∀ {queue value queue'}, trySend queue value = some queue' →
    pending queue' = pending queue ++ [value] ∧ capacity queue' = capacity queue
  trySend_eq_none : ∀ {queue value},
    trySend queue value = none ↔ (pending queue).length = capacity queue
  recv?_eq_some : ∀ {queue value queue'}, recv? queue = some (value, queue') →
    pending queue = value :: pending queue' ∧ capacity queue' = capacity queue
  recv?_eq_none : ∀ {queue}, recv? queue = none ↔ pending queue = []

/-! ## Receivers -/

/-- A receiver that was made when the first values had been sent has received the ones behind them,
and is to receive the rest. -/
structure Following (values before got rest : List α) (next : Nat) : Prop where
  values : values = before ++ got ++ rest
  next : next = (before ++ got).length

namespace Following

variable {C : Type} {slots sent : C → Nat} {send : C → α → C} {recv : C → Nat → Received α × Nat}
  {Carries : C → List α → Prop} (laws : BroadcastLaws slots sent send recv Carries)
  {channel : C} {values before got rest : List α} {value : α} {next next' : Nat}

/-- A value that is sent is to be received behind the others. -/
theorem extend (h : Following values before got rest next) :
    Following (values ++ [value]) before got (rest ++ [value]) next := by
  constructor
  · rw [h.values, List.append_assoc _ rest]
  · exact h.next

include laws

/-- A receiver stands behind all that was sent before it was made. -/
theorem subscribe (h : Carries channel values) : Following values values [] [] (sent channel) := by
  constructor
  · rw [List.append_nil, List.append_nil]
  · rw [List.append_nil, laws.sent_eq h]

/-- What a receiver is given: the next value, as long as the channel holds all that it has not
got. -/
theorem recv_eq (hcarries : Carries channel values) (h : Following values before got rest next) :
    recv channel next =
      if rest.length ≤ slots channel then
        match rest with
        | [] => (.empty, next)
        | value :: _ => (.value value, next + 1)
      else
        (.lagged (rest.length - slots channel), next + (rest.length - slots channel)) := by
  obtain ⟨rfl, rfl⟩ := h
  exact laws.recv_eq hcarries

/-- A receiver that is given a value has received one more. -/
theorem received (hcarries : Carries channel values) (h : Following values before got rest next)
    (hrecv : recv channel next = (.value value, next')) :
    ∃ rest', rest = value :: rest' ∧ Following values before (got ++ [value]) rest' next' := by
  rw [h.recv_eq laws hcarries] at hrecv
  split at hrecv
  · cases rest with
    | nil => cases hrecv
    | cons first rest =>
      cases hrecv
      refine ⟨rest, rfl, ?_, ?_⟩
      · rw [h.values, List.append_assoc, List.append_assoc, List.append_assoc,
          List.singleton_append]
      · have hnext := h.next
        simp only [List.length_append, List.length_singleton] at hnext ⊢
        omega
  · cases hrecv

/-- A receiver for which nothing is left has got everything. -/
theorem rest_eq_nil (hcarries : Carries channel values) (h : Following values before got rest next)
    (hrecv : (recv channel next).1 = .empty) : rest = [] := by
  rw [h.recv_eq laws hcarries] at hrecv
  split at hrecv
  · cases rest with
    | nil => rfl
    | cons first rest => cases hrecv
  · cases hrecv

/-- What a receiver is to get next was sent. -/
theorem mem_of_recv (hcarries : Carries channel values) (h : Following values before got rest next)
    (hrecv : (recv channel next).1 = .value value) : value ∈ values := by
  obtain ⟨next', hpair⟩ : ∃ next', recv channel next = (.value value, next') :=
    ⟨_, Prod.ext hrecv rfl⟩
  obtain ⟨rest', rfl, _⟩ := h.received laws hcarries hpair
  rw [h.values]
  exact List.mem_append_right _ (List.mem_cons_self ..)

end Following

/-! ## Broadcasts -/

/-- A channel to all its receivers. The first values that were sent are dropped for newer ones. -/
structure Broadcast (α : Type) where
  slots : Nat
  dropped : Nat
  kept : List α
  slots_pos : 0 < slots
  kept_le : kept.length ≤ slots
  full : dropped ≠ 0 → kept.length = slots

namespace Broadcast

/-- A channel through which nothing was sent. -/
def new (slots : Nat) (h : 0 < slots) : Broadcast α :=
  ⟨slots, 0, [], h, Nat.zero_le _, fun hne => absurd rfl hne⟩

/-- How many values were sent. -/
def sent (channel : Broadcast α) : Nat :=
  channel.dropped + channel.kept.length

/-- Keeps a value, in place of the oldest one when the slots are taken. -/
def send (channel : Broadcast α) (value : α) : Broadcast α :=
  if hroom : channel.kept.length < channel.slots then
    { channel with
      kept := channel.kept ++ [value]
      kept_le := by rw [List.length_append, List.length_singleton]; omega
      full := fun hne => absurd (channel.full hne) (Nat.ne_of_lt hroom) }
  else
    have hlength : (channel.kept.tail ++ [value]).length = channel.slots := by
      have hle := channel.kept_le
      have hpos := channel.slots_pos
      rw [List.length_append, List.length_tail, List.length_singleton]
      omega
    { channel with
      dropped := channel.dropped + 1
      kept := channel.kept.tail ++ [value]
      kept_le := Nat.le_of_eq hlength
      full := fun _ => hlength }

/-- What a receiver at a position is given, and where it stands then. -/
def recv (channel : Broadcast α) (next : Nat) : Received α × Nat :=
  if next < channel.dropped then
    (.lagged (channel.dropped - next), channel.dropped)
  else
    match channel.kept[next - channel.dropped]? with
    | some value => (.value value, next + 1)
    | none => (.empty, next)

/-- These values were sent. -/
structure Carries (channel : Broadcast α) (values : List α) : Prop where
  length : values.length = channel.sent
  kept : channel.kept = values.drop channel.dropped

variable {channel : Broadcast α} {values : List α} {value : α} {next : Nat}

/-- Nothing was sent through a new channel. -/
theorem carries_new {slots : Nat} {h : 0 < slots} : (new slots h : Broadcast α).Carries [] :=
  ⟨rfl, rfl⟩

/-- The slots stay as many as they were. -/
@[simp] theorem slots_send : (channel.send value).slots = channel.slots := by
  unfold send
  split <;> rfl

/-- What is sent comes behind what was. -/
theorem Carries.send (h : channel.Carries values) :
    (channel.send value).Carries (values ++ [value]) := by
  obtain ⟨hlength, hkept⟩ := h
  unfold sent at hlength
  unfold Broadcast.send
  split
  · next hroom =>
    constructor
    · simp only [sent, List.length_append, List.length_singleton]
      omega
    · show channel.kept ++ [value] = (values ++ [value]).drop channel.dropped
      rw [List.drop_append_of_le_length (by omega), hkept]
  · next hfull =>
    have hpos := channel.slots_pos
    constructor
    · simp only [sent, List.length_append, List.length_tail, List.length_singleton]
      omega
    · show channel.kept.tail ++ [value] = (values ++ [value]).drop (channel.dropped + 1)
      rw [List.drop_append_of_le_length (by omega), hkept, List.tail_drop]

/-- A receiver that has got the first values is given the next one, or is told how many of those it
has not got are gone, or there is none. -/
theorem Carries.recv {before rest : List α} (h : channel.Carries (before ++ rest)) :
    channel.recv before.length =
      if rest.length ≤ channel.slots then
        match rest with
        | [] => (.empty, before.length)
        | value :: _ => (.value value, before.length + 1)
      else
        (.lagged (rest.length - channel.slots), before.length + (rest.length - channel.slots)) := by
  obtain ⟨hlength, hkept⟩ := h
  rw [List.length_append] at hlength
  unfold sent at hlength
  have hle := channel.kept_le
  unfold Broadcast.recv
  by_cases hlag : before.length < channel.dropped
  · have hfull := channel.full (by omega)
    have hskipped : channel.dropped - before.length = rest.length - channel.slots := by omega
    rw [if_pos hlag, if_neg (by omega), hskipped]
    congr 1
    omega
  · have hget : channel.kept[before.length - channel.dropped]? = rest[0]? := by
      rw [hkept, List.getElem?_drop, Nat.add_sub_cancel' (Nat.le_of_not_lt hlag),
        List.getElem?_append_right (Nat.le_refl _), Nat.sub_self]
    rw [if_neg hlag, if_pos (by omega), hget]
    cases rest with
    | nil => rfl
    | cons value rest => rfl

/-- A channel that keeps the last values has the laws. -/
theorem laws : BroadcastLaws slots sent (@send α) recv Carries where
  sent_eq h := h.length.symm
  carries_send h := h.send
  slots_send := slots_send
  recv_eq h := h.recv

end Broadcast

/-! ## Queues -/

/-- A queue that holds so many values. -/
structure BoundedQueue (α : Type) where
  capacity : Nat
  pending : List α
  bounded : pending.length ≤ capacity

namespace BoundedQueue

/-- A queue that holds nothing. -/
def new (capacity : Nat) : BoundedQueue α :=
  ⟨capacity, [], Nat.zero_le _⟩

/-- Puts a value behind the others, unless the queue is full. -/
def trySend (queue : BoundedQueue α) (value : α) : Option (BoundedQueue α) :=
  if hroom : queue.pending.length < queue.capacity then
    some
      { queue with
        pending := queue.pending ++ [value]
        bounded := by rw [List.length_append, List.length_singleton]; omega }
  else
    none

/-- Takes the first value out. -/
def recv? (queue : BoundedQueue α) : Option (α × BoundedQueue α) :=
  match hpending : queue.pending with
  | [] => none
  | value :: rest =>
    some (value,
      { queue with
        pending := rest
        bounded := by
          have hle := queue.bounded
          rw [hpending, List.length_cons] at hle
          omega })

variable {queue queue' : BoundedQueue α} {value : α}

/-- What is accepted goes behind what the queue holds. -/
theorem trySend_eq_some (h : queue.trySend value = some queue') :
    queue'.pending = queue.pending ++ [value] ∧ queue'.capacity = queue.capacity := by
  unfold trySend at h
  split at h
  · cases h
    exact ⟨rfl, rfl⟩
  · cases h

/-- A value is refused when the queue is full, and only then. -/
theorem trySend_eq_none : queue.trySend value = none ↔ queue.pending.length = queue.capacity := by
  have hle := queue.bounded
  unfold trySend
  split
  · next hroom => exact iff_of_false (Option.some_ne_none _) (Nat.ne_of_lt hroom)
  · next hfull => exact iff_of_true rfl (by omega)

/-- What is taken out is what the queue held first. -/
theorem recv?_eq_some (h : queue.recv? = some (value, queue')) :
    queue.pending = value :: queue'.pending ∧ queue'.capacity = queue.capacity := by
  unfold recv? at h
  split at h
  · cases h
  · next hpending =>
    cases h
    exact ⟨hpending, rfl⟩

/-- Nothing can be taken out when the queue holds nothing, and only then. -/
theorem recv?_eq_none : queue.recv? = none ↔ queue.pending = [] := by
  unfold recv?
  split
  · next hpending => exact iff_of_true rfl hpending
  · next hpending =>
    refine iff_of_false (Option.some_ne_none _) ?_
    rw [hpending]
    exact List.cons_ne_nil _ _

/-- A queue with a capacity has the laws. -/
theorem laws : QueueLaws capacity pending (@trySend α) recv? where
  trySend_eq_some := trySend_eq_some
  trySend_eq_none := trySend_eq_none
  recv?_eq_some := recv?_eq_some
  recv?_eq_none := recv?_eq_none

end BoundedQueue

end Tangle
