import Tangle.Lib.Except
import Tangle.Lib.Laid
import Tangle.Pocket.Event

/-!
# Scans of an event map

The events of a store lie in one map of bytes, each at the first place behind its predecessor that
is a multiple of eight. A scan walks the map with offsets of 64 bits until it is past the bytes that
the map says it has, with or without the last event's padding. The store is reached under several
types of events, so a scan (`EventScan`) is over any: it asks for the event at an offset and for the
bytes that the event takes.

What a scan reads from an offset on is a relation of its own (`EventScan.Reads`), and the loop ends
with it exactly (`EventScan.eventsAfter_eq_ok`). Events that are laid out in memory are read as they
lie (`EventScan.reads_of_laid`), and what is read is laid out (`EventScan.Reads.laid`).
-/

namespace Tangle

/-! ## Offsets -/

/-- Where the first event of a map lies: a map starts with the number of its bytes, a `usize`. -/
def eventMapStartOffset : StoreOffset := 8

def alignEventOffset (offset : StoreOffset) : StoreOffset :=
  if offset % 8 = 0 then offset else offset + (8 - offset % 8)

/-- Aligning moves an offset up, by less than eight. -/
theorem alignEventOffset_bounds (offset : Nat) :
    offset ≤ alignEventOffset offset ∧ alignEventOffset offset < offset + 8 := by
  unfold alignEventOffset
  split
  · exact ⟨Nat.le_refl _, Nat.lt_add_of_pos_right (by decide)⟩
  · next h =>
    have hpos : 0 < offset % 8 := Nat.pos_of_ne_zero h
    have hlt : offset + (8 - offset % 8) < offset + 8 := by omega
    exact ⟨Nat.le_add_right _ _, hlt⟩

/-- The length of a slice of memory is at most `isize::MAX`. -/
def maxMemoryBytes : Nat := 2 ^ 63 - 1

theorem maxMemoryBytes_lt : maxMemoryBytes + 7 < 2 ^ 64 := by
  decide

/-- An offset in memory is kept by the 64 bits that hold it. -/
theorem toNat_ofNat_of_memory {offset : Nat} (h : offset ≤ maxMemoryBytes) :
    (UInt64.ofNat offset).toNat = offset := by
  have hmax := maxMemoryBytes_lt
  have hsize : UInt64.size = 2 ^ 64 := rfl
  exact UInt64.toNat_ofNat_of_lt' (by omega)

/-- Adds when the sum is one of 64 bits (`u64::checked_add`). -/
def checkedAdd (a b : UInt64) : Option UInt64 :=
  if a.toNat + b.toNat < 2 ^ 64 then some (a + b) else none

/-- `event_map_start_offset`. -/
def eventMapStartOffset64 : UInt64 := 8

/-- `align_event_offset`, in unchecked arithmetic. -/
def alignEventOffset64 (offset : UInt64) : UInt64 :=
  if offset % 8 = 0 then offset else offset + (8 - offset % 8)

/-- `event_len_u64`, of an event's length. -/
def eventLenU64 (len : Nat) : Except String UInt64 :=
  if len < 2 ^ 64 then .ok (UInt64.ofNat len) else .error "Pocket event size exceeds u64"

/-- `next_event_offset`, of an event's length. -/
def nextEventOffset64 (offset : UInt64) (len : Nat) : Except String UInt64 := do
  let len ← eventLenU64 len
  let next ← Except.okOr (checkedAdd offset len) "Pocket event offset exceeds u64"
  return alignEventOffset64 next

/-- Aligning does not wrap where there is room for the padding. -/
theorem toNat_alignEventOffset64 {offset : UInt64} (h : offset.toNat + 7 < 2 ^ 64) :
    (alignEventOffset64 offset).toNat = alignEventOffset offset.toNat := by
  have hrest : (offset % 8).toNat = offset.toNat % 8 := UInt64.toNat_mod offset 8
  have hzero : offset % 8 = 0 ↔ offset.toNat % 8 = 0 := by
    rw [← UInt64.toNat_inj, hrest]
    rfl
  unfold alignEventOffset64 alignEventOffset
  by_cases hmod : offset.toNat % 8 = 0
  · rw [if_pos (hzero.mpr hmod), if_pos hmod]
  · rw [if_neg (fun h => hmod (hzero.mp h)), if_neg hmod]
    have hlt : offset.toNat % 8 < 8 := Nat.mod_lt _ (by decide)
    have hle : offset % 8 ≤ 8 := by
      rw [UInt64.le_iff_toNat_le, hrest]
      exact le_of_lt hlt
    have hpad : (8 - offset % 8).toNat = 8 - offset.toNat % 8 := by
      rw [UInt64.toNat_sub_of_le _ _ hle, hrest]
      rfl
    rw [UInt64.toNat_add, hpad, Nat.mod_eq_of_lt]
    omega

/-- **The offset after an event in memory is computed without overflow.** -/
theorem nextEventOffset64_eq {offset : UInt64} {len : Nat}
    (h : offset.toNat + len ≤ maxMemoryBytes) :
    ∃ next, nextEventOffset64 offset len = .ok next ∧
      next.toNat = alignEventOffset (offset.toNat + len) := by
  have hmax := maxMemoryBytes_lt
  have hbytes : (UInt64.ofNat len).toNat = len :=
    toNat_ofNat_of_memory (le_trans (Nat.le_add_left _ _) h)
  have hsum : (offset + UInt64.ofNat len).toNat = offset.toNat + len := by
    rw [UInt64.toNat_add, hbytes, Nat.mod_eq_of_lt]
    omega
  have hlen : len < 2 ^ 64 := by omega
  have hfits : offset.toNat + len < 2 ^ 64 := by omega
  refine ⟨_, ?_, (toNat_alignEventOffset64 ?_).trans (congrArg alignEventOffset hsum)⟩
  · unfold nextEventOffset64 eventLenU64 checkedAdd
    rw [if_pos hlen, Except.ok_bind, hbytes, if_pos hfits, Except.okOr_some, Except.ok_bind]
    rfl
  · rw [hsum]
    omega

/-! ## Scans -/

/-- What a scan asks of a store whose events have the type `α`; the events that it returns, with
their places, have the type `β`. -/
structure EventScan (α β : Type) where
  /-- `event_bytes` of the store's statistics. -/
  eventBytes : UInt64
  /-- `get_event_by_offset`. -/
  eventByOffset : UInt64 → Except String α
  /-- The bytes an event takes. -/
  eventLen : α → Nat
  /-- `PocketStoredEvent::new`. -/
  stored : UInt64 → α → β

namespace EventScan

variable {α β : Type} (scan : EventScan α β)

/-- `while offset < end`, for some steps. -/
def loop : Nat → UInt64 → List β → Option (Except String (List β))
  | 0, _, _ => none
  | steps + 1, offset, events =>
    if offset < scan.eventBytes then
      match scan.eventByOffset offset with
      | .error error => some (.error error)
      | .ok event =>
        match nextEventOffset64 offset (scan.eventLen event) with
        | .error error => some (.error error)
        | .ok next => loop steps next (events ++ [scan.stored offset event])
    else
      some (.ok events)

/-- Where a scan starts. -/
def start (lastOffset : Option UInt64) : Except String UInt64 :=
  match lastOffset with
  | some offset => do
    let event ← scan.eventByOffset offset
    nextEventOffset64 offset (scan.eventLen event)
  | none => .ok eventMapStartOffset64

/-- `scan_events_after`, when its loop ends within the steps. -/
def eventsAfter (steps : Nat) (lastOffset : Option UInt64) :
    Option (Except String (List β)) :=
  match scan.start lastOffset with
  | .error error => some (.error error)
  | .ok offset => scan.loop steps offset []

/-! ## What a scan reads -/

/-- A scan that has come to an offset reads these events, and then stands at the end of the map. -/
inductive Reads : UInt64 → List β → Prop
  | done {offset : UInt64} : ¬ offset < scan.eventBytes → Reads offset []
  | event {offset next : UInt64} {event : α} {rest : List β} : offset < scan.eventBytes →
      scan.eventByOffset offset = .ok event →
      nextEventOffset64 offset (scan.eventLen event) = .ok next → Reads next rest →
      Reads offset (scan.stored offset event :: rest)

variable {scan} {offset : UInt64} {events more seen : List β} {steps : Nat}

/-- A scan reads one list of events only: each step is determined by the offset. -/
theorem Reads.unique (h : scan.Reads offset events) (h' : scan.Reads offset more) :
    events = more := by
  induction h generalizing more with
  | done hend =>
    cases h' with
    | done => rfl
    | event hlt => exact absurd hlt hend
  | event hlt hevent hnext _ ih =>
    cases h' with
    | done hend => exact absurd hlt hend
    | event _ hevent' hnext' hrest' =>
      cases hevent.symm.trans hevent'
      cases hnext.symm.trans hnext'
      rw [ih hrest']

/-- The loop ends with what there is to read, given a step for each event and one for the end. -/
theorem Reads.loop (h : scan.Reads offset events) (hsteps : events.length < steps) :
    scan.loop steps offset seen = some (.ok (seen ++ events)) := by
  induction h generalizing seen steps with
  | done hend =>
    obtain ⟨steps, rfl⟩ : ∃ n, steps = n + 1 := ⟨steps - 1, by omega⟩
    rw [EventScan.loop, if_neg hend, List.append_nil]
  | @event offset next event rest hlt hevent hnext _ ih =>
    obtain ⟨steps, rfl⟩ : ∃ n, steps = n + 1 := ⟨steps - 1, by omega⟩
    rw [List.length_cons] at hsteps
    have hrest := @ih (seen ++ [scan.stored offset event]) steps (by omega)
    rw [EventScan.loop, if_pos hlt, hevent]
    dsimp only
    rw [hnext]
    dsimp only
    rw [hrest, List.append_assoc]
    rfl

/-- A loop that ended well has read what it returns behind what it had seen. -/
theorem reads_of_loop (h : scan.loop steps offset seen = some (.ok events)) :
    ∃ rest, events = seen ++ rest ∧ scan.Reads offset rest := by
  induction steps generalizing offset seen with
  | zero => cases h
  | succ steps ih =>
    unfold EventScan.loop at h
    split at h
    · next hlt =>
      split at h
      · cases h
      · next event hevent =>
        split at h
        · cases h
        · next next hnext =>
          obtain ⟨rest, rfl, hrest⟩ := ih h
          exact ⟨_ :: rest, by rw [List.append_assoc]; rfl, .event hlt hevent hnext hrest⟩
    · next hend =>
      cases h
      exact ⟨[], (List.append_nil _).symm, .done hend⟩

/-- **A scan with steps enough returns exactly what is read from its start.** -/
theorem eventsAfter_eq_ok {lastOffset : Option UInt64} (hstart : scan.start lastOffset = .ok offset)
    (hsteps : events.length < steps) :
    scan.eventsAfter steps lastOffset = some (.ok events) ↔ scan.Reads offset events := by
  unfold eventsAfter
  rw [hstart]
  constructor
  · intro h
    obtain ⟨rest, rfl, hrest⟩ := reads_of_loop h
    exact hrest
  · exact fun h => h.loop hsteps

/-! ## Scans in memory -/

variable (scan) in
/-- Every event that is found is a slice of memory that has bytes. -/
def InMemory : Prop :=
  ∀ {offset : UInt64} {event : α}, scan.eventByOffset offset = .ok event →
    0 < scan.eventLen event ∧ offset.toNat + scan.eventLen event ≤ maxMemoryBytes

/-- **A scan in memory ends.** The offset grows with every event, so there are no more steps than
there are bytes before the end, and one that finds the end. -/
theorem loop_isSome (h : scan.InMemory) (hsteps : scan.eventBytes.toNat ≤ offset.toNat + steps) :
    (scan.loop (steps + 1) offset seen).isSome := by
  induction steps generalizing offset seen with
  | zero =>
    have hend : ¬ offset < scan.eventBytes := by
      rw [UInt64.lt_iff_toNat_lt]
      omega
    rw [EventScan.loop, if_neg hend]
    rfl
  | succ steps ih =>
    rw [EventScan.loop]
    split
    · split
      · rfl
      · next event hevent =>
        obtain ⟨hpos, hmemory⟩ := h hevent
        obtain ⟨next, hnext, hvalue⟩ := nextEventOffset64_eq hmemory
        rw [hnext]
        dsimp only
        have hgrows := (alignEventOffset_bounds (offset.toNat + scan.eventLen event)).1
        exact ih (by omega)
    · rfl

/-- A scan that starts at the start of the map ends within a step for each byte. -/
theorem eventsAfter_none_isSome (h : scan.InMemory) :
    (scan.eventsAfter (scan.eventBytes.toNat + 1) none).isSome :=
  loop_isSome h (Nat.le_add_left _ _)

variable (scan) in
/-- `scan_events`, of a map in memory. -/
def allEvents (h : scan.InMemory) : Except String (List β) :=
  (scan.eventsAfter (scan.eventBytes.toNat + 1) none).get (eventsAfter_none_isSome h)

/-- No more events are read than there are bytes before the end. -/
theorem Reads.length_le (h : scan.Reads offset events) (hmemory : scan.InMemory) :
    events.length ≤ scan.eventBytes.toNat - offset.toNat := by
  induction h with
  | done => exact Nat.zero_le _
  | @event offset next event rest hlt hevent hnext _ ih =>
    obtain ⟨hpos, hwithin⟩ := hmemory hevent
    obtain ⟨next', hnext', hvalue⟩ := nextEventOffset64_eq hwithin
    cases hnext.symm.trans hnext'
    have hgrows := (alignEventOffset_bounds (offset.toNat + scan.eventLen event)).1
    rw [UInt64.lt_iff_toNat_lt] at hlt
    rw [List.length_cons]
    omega

/-- **A scan of a map in memory returns exactly what is read from the map's start.** -/
theorem allEvents_eq_ok {h : scan.InMemory} :
    scan.allEvents h = .ok events ↔ scan.Reads eventMapStartOffset64 events := by
  have hstart : scan.start none = .ok eventMapStartOffset64 := rfl
  unfold allEvents
  constructor
  · intro hevents
    have hended := Option.some_get (eventsAfter_none_isSome h)
    rw [hevents] at hended
    obtain ⟨rest, rfl, hrest⟩ := reads_of_loop hended.symm
    exact hrest
  · intro hreads
    have hlength := hreads.length_le h
    have hended := (eventsAfter_eq_ok hstart
      (show events.length < scan.eventBytes.toNat + 1 by omega)).mpr hreads
    simp only [hended, Option.get_some]

/-! ## Events that are laid out -/

section
variable {place : β → Nat} {event : β → α}

variable (scan) in
/-- Where the next event goes. -/
def nextPlace (place : β → Nat) (event : β → α) (item : β) : Nat :=
  alignEventOffset (place item + scan.eventLen (event item))

/-- **Events that are laid out are read as they lie.** They lie in memory, each is found at its
place, and the map ends behind the start of the last one and no further than the next one goes. -/
theorem reads_of_laid (hlaid : Laid place (scan.nextPlace place event) offset.toNat events)
    (hmemory : ∀ item ∈ events, place item + scan.eventLen (event item) ≤ maxMemoryBytes)
    (hbefore : ∀ item ∈ events, place item < scan.eventBytes.toNat)
    (hbehind : scan.eventBytes.toNat ≤ frontier (scan.nextPlace place event) offset.toNat events)
    (hfound : ∀ item ∈ events, scan.eventByOffset (UInt64.ofNat (place item)) = .ok (event item))
    (hstored : ∀ item ∈ events, scan.stored (UInt64.ofNat (place item)) (event item) = item) :
    scan.Reads offset events := by
  induction events generalizing offset with
  | nil =>
    refine .done ?_
    rw [UInt64.lt_iff_toNat_lt]
    exact Nat.not_lt.mpr hbehind
  | cons item rest ih =>
    obtain ⟨hplace, hrest⟩ : place item = offset.toNat ∧
        Laid place (scan.nextPlace place event) (scan.nextPlace place event item) rest := by
      cases hlaid with
      | cons hplace hrest => exact ⟨hplace, hrest⟩
    obtain ⟨hitem, hothers⟩ := List.forall_mem_cons.mp hmemory
    obtain ⟨hlt, hbefore⟩ := List.forall_mem_cons.mp hbefore
    obtain ⟨hevent, hfound⟩ := List.forall_mem_cons.mp hfound
    obtain ⟨hsame, hstored⟩ := List.forall_mem_cons.mp hstored
    rw [hplace] at hitem hlt
    rw [hplace, UInt64.ofNat_toNat] at hevent hsame
    obtain ⟨next, hnext, hvalue⟩ := nextEventOffset64_eq hitem
    have hnextPlace : next.toNat = scan.nextPlace place event item := by
      rw [hvalue, nextPlace, hplace]
    rw [← hnextPlace] at hrest
    rw [frontier_cons, ← hnextPlace] at hbehind
    have hreads := ih hrest hothers hbefore hbehind hfound hstored
    have hstep := Reads.event (UInt64.lt_iff_toNat_lt.mpr hlt) hevent hnext hreads
    rw [hsame] at hstep
    exact hstep

/-- **What is read in memory is laid out** from where the scan stood. -/
theorem Reads.laid (h : scan.Reads offset events) (hmemory : scan.InMemory)
    (hplace : ∀ offset event, place (scan.stored offset event) = offset.toNat)
    (hevent : ∀ offset found, event (scan.stored offset found) = found) :
    Laid place (scan.nextPlace place event) offset.toNat events := by
  induction h with
  | done => exact .nil
  | @event offset next found rest _ hfound hnext _ ih =>
    refine .cons (hplace offset found) ?_
    obtain ⟨next', hnext', hvalue⟩ := nextEventOffset64_eq (hmemory hfound).2
    cases hnext.symm.trans hnext'
    rw [nextPlace, hplace, hevent, ← hvalue]
    exact ih

/-- The event of the first item that lies at an offset. -/
def eventAt (place : β → Nat) (event : β → α) (items : List β) (offset : UInt64) :
    Except String α :=
  Except.okOr ((items.find? fun item => UInt64.ofNat (place item) == offset).map event)
    "no event at the offset"

/-- What is looked up is an item's. -/
theorem eventAt_eq_ok {found : α} (h : eventAt place event events offset = .ok found) :
    ∃ item ∈ events, UInt64.ofNat (place item) = offset ∧ event item = found := by
  obtain ⟨item, hitem, hfound⟩ := Option.map_eq_some_iff.mp (Except.okOr_eq_ok.mp h)
  have hplace := @List.find?_some _ (fun item => UInt64.ofNat (place item) == offset) _ _ hitem
  exact ⟨item, List.mem_of_find?_eq_some hitem, beq_iff_eq.mp hplace, hfound⟩

/-- Items at places of memory that grow are each found at its place. -/
theorem eventAt_of_pairwise (hgrow : events.Pairwise fun a b => place a < place b)
    (hmemory : ∀ item ∈ events, place item ≤ maxMemoryBytes) {item : β} (hitem : item ∈ events) :
    eventAt place event events (UInt64.ofNat (place item)) = .ok (event item) := by
  obtain ⟨before, after, rfl⟩ := List.append_of_mem hitem
  have hacross := (List.pairwise_append.mp hgrow).2.2
  have hbefore : before.find?
      (fun other => UInt64.ofNat (place other) == UInt64.ofNat (place item)) = none := by
    refine List.find?_eq_none.mpr fun other hother hsame => ?_
    have hlt := hacross other hother item List.mem_cons_self
    have heq := congrArg UInt64.toNat (beq_iff_eq.mp hsame)
    rw [toNat_ofNat_of_memory (hmemory other (List.mem_append_left _ hother)),
      toNat_ofNat_of_memory (hmemory item hitem)] at heq
    omega
  rw [eventAt, List.find?_append, hbefore, List.find?_cons, beq_self_eq_true]
  rfl

end

end EventScan

end Tangle
