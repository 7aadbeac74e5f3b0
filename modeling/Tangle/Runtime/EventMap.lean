import Tangle.Pocket.EventScans
import Tangle.Runtime.Runs

/-!
# Scanning the event map

The map that the relay's store keeps its events in (`EventMap`), and the scans of it that
`EventScan` describes. A scan ends with all events, or with those behind the event it was told to
start after (`scanEventsAfter_eq_scanAfter`), so scans that each go on from the last event seen miss
none and repeat none, whatever is stored between them (`Scanned.isPrefix`). The map of every relay
is laid out this way (`Relay.Reaches.laid`).
-/

namespace Tangle

/-- `next_event_offset`. -/
def PocketDb.nextEventOffset64 (db : PocketDb) (offset : UInt64) (event : PocketEvent) :
    Except String UInt64 :=
  Tangle.nextEventOffset64 offset (db.eventLen event)

/-! ## The map -/

/-- A map of events: they are laid out from the map's start and lie in memory. The bytes the map
says it has reach behind the start of the last event and no further than the next one goes. -/
structure EventMap (db : PocketDb) where
  events : List StoredEvent
  eventBytes : UInt64
  /-- `get_event_by_offset`. -/
  eventByOffset : UInt64 → Except String PocketEvent
  laid : Laid StoredEvent.storeOffset db.nextEventOffset eventMapStartOffset events
  inMemory : ∀ item ∈ events, item.storeOffset + db.eventLen item.event ≤ maxMemoryBytes
  behindLast : ∀ last, events.getLast? = some last → last.storeOffset < eventBytes.toNat
  beforeNext : eventBytes.toNat ≤ db.nextOffset events
  found : ∀ item ∈ events, eventByOffset (UInt64.ofNat item.storeOffset) = .ok item.event

namespace EventMap

variable {db : PocketDb} (map : EventMap db)

/-- The next event of events in memory goes to an offset of 64 bits. -/
theorem nextOffset_lt {events : List StoredEvent}
    (inMemory : ∀ item ∈ events, item.storeOffset + db.eventLen item.event ≤ maxMemoryBytes) :
    db.nextOffset events < 2 ^ 64 := by
  unfold PocketDb.nextOffset
  cases hlast : events.getLast? with
  | none => exact (by decide : eventMapStartOffset < 2 ^ 64)
  | some last =>
    have hmemory := inMemory last (List.mem_of_getLast? hlast)
    have hbound := (alignEventOffset_bounds (last.storeOffset + db.eventLen last.event)).2
    exact lt_of_lt_of_le hbound (le_trans (Nat.add_le_add_right hmemory 8) maxMemoryBytes_lt)

/-- The map of events in memory that are laid out, with all of its padding. -/
def ofEvents (events : List StoredEvent)
    (laid : Laid StoredEvent.storeOffset db.nextEventOffset eventMapStartOffset events)
    (inMemory : ∀ item ∈ events, item.storeOffset + db.eventLen item.event ≤ maxMemoryBytes) :
    EventMap db where
  events := events
  eventBytes := UInt64.ofNat (db.nextOffset events)
  eventByOffset := EventScan.eventAt StoredEvent.storeOffset StoredEvent.event events
  laid := laid
  inMemory := inMemory
  behindLast last hlast := by
    rw [UInt64.toNat_ofNat_of_lt' (nextOffset_lt inMemory)]
    exact laid.lt_frontier db.nextEventOffset_gt last (List.mem_of_getLast? hlast)
  beforeNext := by
    rw [UInt64.toNat_ofNat_of_lt' (nextOffset_lt inMemory)]
  found item hitem := EventScan.eventAt_of_pairwise (laid.pairwise db.nextEventOffset_gt)
    (fun other hother => le_trans (Nat.le_add_right _ _) (inMemory other hother)) hitem

/-- What a scan asks of the map. -/
def scan : EventScan PocketEvent StoredEvent where
  eventBytes := map.eventBytes
  eventByOffset := map.eventByOffset
  eventLen := db.eventLen
  stored offset event := ⟨event, offset.toNat⟩

/-- `scan_events_after`, when its loop ends within the steps. -/
def scanEventsAfter (steps : Nat) (lastOffset : Option UInt64) :
    Option (Except String (List StoredEvent)) :=
  map.scan.eventsAfter steps lastOffset

/-- `scan_events`. -/
def scanEvents (steps : Nat) : Option (Except String (List StoredEvent)) :=
  map.scanEventsAfter steps none

/-! ## One scan -/

variable {map}

/-- Every event lies before the bytes of the map end: the last one does, and no event lies behind
it. -/
theorem place_lt_eventBytes {item : StoredEvent} (h : item ∈ map.events) :
    item.storeOffset < map.eventBytes.toNat := by
  obtain ⟨before, after, hevents⟩ := List.append_of_mem h
  obtain ⟨last, hlast⟩ : ∃ last, map.events.getLast? = some last :=
    ⟨_, List.getLast?_eq_some_getLast (List.ne_nil_of_mem h)⟩
  have hbehind := map.behindLast last hlast
  have hlaid := map.laid
  rw [hevents] at hlaid hlast
  rw [List.getLast?_append_of_ne_nil _ (List.cons_ne_nil _ _)] at hlast
  obtain ⟨_, hrest⟩ := Laid.append_iff.mp hlaid
  have hle := hrest.le_place db.nextEventOffset_gt last (List.mem_of_getLast? hlast)
  have hitem : item.storeOffset ≤ last.storeOffset := by
    cases hrest with
    | cons hplace _ => exact hplace.trans_le hle
  exact lt_of_le_of_lt hitem hbehind

/-- A scan that has come to where events end reads those behind them. -/
theorem reads_behind {before rest : List StoredEvent} {offset : UInt64}
    (hevents : map.events = before ++ rest) (hoffset : offset.toNat = db.nextOffset before) :
    map.scan.Reads offset rest := by
  have hin : ∀ item ∈ rest, item ∈ map.events := by
    intro item hitem
    rw [hevents]
    exact List.mem_append_right _ hitem
  have hlaid := map.laid
  have hend := map.beforeNext
  rw [hevents] at hlaid hend
  have hfrontier : db.nextOffset (before ++ rest) =
      frontier db.nextEventOffset (db.nextOffset before) rest := frontier_append
  rw [hfrontier, ← hoffset] at hend
  have hrest : Laid StoredEvent.storeOffset db.nextEventOffset offset.toNat rest := by
    rw [hoffset]
    exact (Laid.append_iff.mp hlaid).2
  refine EventScan.reads_of_laid hrest (fun item hitem => map.inMemory item (hin item hitem))
    (fun item hitem => place_lt_eventBytes (hin item hitem)) hend
    (fun item hitem => map.found item (hin item hitem)) fun item hitem => ?_
  have hplace := toNat_ofNat_of_memory
    (le_trans (Nat.le_add_right _ _) (map.inMemory item (hin item hitem)))
  exact congrArg (StoredEvent.mk item.event) hplace

/-- Where an event of the map starts, as an offset of 64 bits. -/
def offset64 (item : StoredEvent) : UInt64 :=
  UInt64.ofNat item.storeOffset

/-- The offset after an event of the map is computed without overflow. -/
theorem nextEventOffset64_eq {item : StoredEvent} (h : item ∈ map.events) :
    ∃ next, db.nextEventOffset64 (offset64 item) item.event = .ok next ∧
      next.toNat = db.nextEventOffset item := by
  have hmemory := map.inMemory item h
  have hplace : (offset64 item).toNat = item.storeOffset :=
    toNat_ofNat_of_memory (le_trans (Nat.le_add_right _ _) hmemory)
  rw [← hplace] at hmemory
  obtain ⟨next, hnext, hvalue⟩ := Tangle.nextEventOffset64_eq hmemory
  rw [hplace] at hvalue
  exact ⟨next, hnext, hvalue⟩

/-- **A scan returns every event.** -/
theorem scanEvents_eq {steps : Nat} (hsteps : map.events.length < steps) :
    map.scanEvents steps = some (.ok map.events) := by
  have hstart : map.scan.start none = .ok eventMapStartOffset64 := rfl
  have hall : map.scan.Reads eventMapStartOffset64 map.events :=
    @reads_behind _ map [] _ _ rfl rfl
  exact (EventScan.eventsAfter_eq_ok hstart hsteps).mpr hall

/-- **A scan after an event returns the events behind it.** -/
theorem scanEventsAfter_eq {before after : List StoredEvent} {item : StoredEvent} {steps : Nat}
    (hevents : map.events = before ++ item :: after) (hsteps : map.events.length < steps) :
    map.scanEventsAfter steps (some (offset64 item)) = some (.ok after) := by
  have hmem : item ∈ map.events := by
    rw [hevents]
    exact List.mem_append_right _ List.mem_cons_self
  obtain ⟨next, hnext, hvalue⟩ := nextEventOffset64_eq hmem
  have hstart : map.scan.start (some (offset64 item)) = .ok next :=
    Except.bind_eq_ok.mpr ⟨item.event, map.found item hmem, hnext⟩
  have hsplit : map.events = (before ++ [item]) ++ after := by
    rw [hevents, List.append_assoc]
    rfl
  have hfrom : next.toNat = db.nextOffset (before ++ [item]) := by
    rw [hvalue, PocketDb.nextOffset, List.getLast?_concat]
    rfl
  have hlength : after.length < steps := by
    rw [hsplit, List.length_append] at hsteps
    omega
  exact (EventScan.eventsAfter_eq_ok hstart hlength).mpr (reads_behind hsplit hfrom)

/-- A scan after an event is the one the store is modelled with. -/
theorem scanEventsAfter_eq_scanAfter {lastOffset : Option StoreOffset} {steps : Nat}
    (hlast : ∀ offset, lastOffset = some offset → ∃ item ∈ map.events, item.storeOffset = offset)
    (hsteps : map.events.length < steps) :
    map.scanEventsAfter steps (lastOffset.map UInt64.ofNat) =
      some (PocketDb.scanAfter map.events lastOffset) := by
  cases lastOffset with
  | none => exact scanEvents_eq hsteps
  | some offset =>
    obtain ⟨item, hmem, rfl⟩ := hlast offset rfl
    obtain ⟨before, after, hevents⟩ := List.append_of_mem hmem
    have hany : map.events.any (fun stored => stored.storeOffset == item.storeOffset) = true :=
      List.any_eq_true.mpr ⟨item, hmem, beq_self_eq_true _⟩
    have hlaid := map.laid
    rw [hevents] at hlaid
    have hfilter := hlaid.filter_lt db.nextEventOffset_gt
    have hscan : PocketDb.scanAfter map.events (some item.storeOffset) = .ok after := by
      have hif : PocketDb.scanAfter map.events (some item.storeOffset) =
          .ok (map.events.filter fun stored => item.storeOffset < stored.storeOffset) := if_pos hany
      rw [hif, hevents, hfilter]
    rw [hscan]
    exact scanEventsAfter_eq hevents hsteps

/-! ## Scans that go on -/

/-- The last offset of the events seen. -/
def lastSeen (seen : List StoredEvent) : Option UInt64 :=
  seen.getLast?.map offset64

/-- What has been seen of a map by scans that each go on after the last offset seen, while events
are stored. -/
inductive Scanned (db : PocketDb) : EventMap db → List StoredEvent → Prop
  | start (map : EventMap db) : Scanned db map []
  | stored {map map' : EventMap db} {seen : List StoredEvent} {event : PocketEvent} :
      Scanned db map seen → map'.events = map.events ++ [⟨event, db.nextOffset map.events⟩] →
      Scanned db map' seen
  | scanned {map : EventMap db} {seen events : List StoredEvent} {steps : Nat} :
      Scanned db map seen → map.scanEventsAfter steps (lastSeen seen) = some (.ok events) →
      Scanned db map (seen ++ events)

/-- A scan that goes on returns what has not been seen. -/
theorem scanEventsAfter_lastSeen {seen rest : List StoredEvent} {steps : Nat}
    (hevents : map.events = seen ++ rest) (hsteps : map.events.length < steps) :
    map.scanEventsAfter steps (lastSeen seen) = some (.ok rest) := by
  rcases List.eq_nil_or_concat seen with rfl | ⟨before, item, rfl⟩
  · rw [List.nil_append] at hevents
    rw [← hevents]
    exact scanEvents_eq hsteps
  · have hlast : lastSeen (before.concat item) = some (offset64 item) := by
      rw [lastSeen, List.concat_eq_append, List.getLast?_concat]
      rfl
    rw [List.concat_eq_append, List.append_assoc] at hevents
    rw [hlast]
    exact scanEventsAfter_eq hevents hsteps

/-- A scan that ends well returns what one with steps enough returns: both read from one start. -/
theorem events_of_scan {steps more : Nat} {lastOffset : Option UInt64}
    {events rest : List StoredEvent}
    (h : map.scanEventsAfter steps lastOffset = some (.ok events))
    (h' : map.scanEventsAfter more lastOffset = some (.ok rest)) : events = rest := by
  unfold scanEventsAfter EventScan.eventsAfter at h h'
  split at h
  · cases h
  · next offset hstart =>
    rw [hstart] at h'
    obtain ⟨read, rfl, hread⟩ := EventScan.reads_of_loop h
    obtain ⟨read', rfl, hread'⟩ := EventScan.reads_of_loop h'
    exact hread.unique hread'

/-- **What has been seen is how the map begins.** -/
theorem Scanned.isPrefix {seen : List StoredEvent} (h : Scanned db map seen) :
    seen <+: map.events := by
  induction h with
  | start => exact List.nil_prefix
  | stored _ hstored ih =>
    rw [hstored]
    exact ih.trans (List.prefix_append _ _)
  | @scanned map seen events steps _ hscan ih =>
    obtain ⟨rest, hrest⟩ := ih
    have hall := scanEventsAfter_lastSeen hrest.symm (Nat.lt_succ_self map.events.length)
    cases events_of_scan hscan hall
    exact ⟨[], by rw [List.append_nil, hrest]⟩

/-- **Scanning the map is exact and can be resumed.** That the events lie in memory is Rust's bound
on the length of the map's slice, so every offset after an event is computed without overflow. A
scan ends and returns every event, in the order of their offsets; a scan after an event ends and
returns the events behind it. Scans that each go on after the last offset seen, between events that
are stored, have seen how the map begins, and the next returns the rest. -/
theorem scanEvents_exact (map : EventMap db) :
    (∀ item ∈ map.events, ∃ next, db.nextEventOffset64 (offset64 item) item.event = .ok next ∧
      next.toNat = db.nextEventOffset item) ∧
    map.events.Pairwise (fun a b => a.storeOffset < b.storeOffset) ∧
    (∀ steps, map.events.length < steps → map.scanEvents steps = some (.ok map.events)) ∧
    (∀ before item after, map.events = before ++ item :: after →
      ∀ steps, map.events.length < steps →
        map.scanEventsAfter steps (some (offset64 item)) = some (.ok after)) ∧
    ∀ seen, Scanned db map seen → ∃ rest, map.events = seen ++ rest ∧
      ∀ steps, map.events.length < steps →
        map.scanEventsAfter steps (lastSeen seen) = some (.ok rest) := by
  refine ⟨fun item hitem => nextEventOffset64_eq hitem,
    map.laid.pairwise db.nextEventOffset_gt, fun _ => scanEvents_eq,
    fun _ _ _ hevents _ => scanEventsAfter_eq hevents, fun seen hseen => ?_⟩
  obtain ⟨rest, hrest⟩ := hseen.isPrefix
  exact ⟨rest, hrest.symm, fun _ => scanEventsAfter_lastSeen hrest.symm⟩

end EventMap

namespace Sample

/-- A database whose events take their content's bytes behind a header. -/
def sizedDb : PocketDb :=
  { plainDb with
    eventLen := fun event => 144 + event.content.length
    eventLen_pos := fun _ => Nat.lt_add_right _ (by decide) }

def scannedNote (createdAt : UnixTimestamp) (content : String) : PocketEvent :=
  { farmEvent owner 1 createdAt [] with content := content.toList }

/-- Two notes, the first of which is followed by padding. -/
def twoNotes : EventMap sizedDb :=
  .ofEvents [⟨scannedNote 10 "carrots", 8⟩, ⟨scannedNote 20 "peas", 160⟩]
    (.cons rfl (.cons rfl .nil)) (by decide +kernel)

end Sample

open Sample in
/-- The theorem at a map of two notes: a scan returns both with their offsets, and a scan behind the
first returns the second. -/
theorem EventMap.scanEvents_exact_twoNotes :
    twoNotes.scanEvents 3 = some (.ok twoNotes.events) ∧
      twoNotes.scanEventsAfter 3 (some 8) = some (.ok [⟨scannedNote 20 "peas", 160⟩]) := by
  obtain ⟨_, _, hall, hbehind, _⟩ := EventMap.scanEvents_exact twoNotes
  exact ⟨hall 3 (Nat.lt_succ_self 2), hbehind [] _ _ rfl 3 (Nat.lt_succ_self 2)⟩

/-! ## The maps of relays -/

/-- The events of a relay are laid out as in a map. -/
theorem Relay.Reaches.laid {relay : Relay} {allowed : World → Happening → Prop} {w : World}
    (hw : relay.Reaches allowed w) : Laid StoredEvent.storeOffset relay.db.nextEventOffset
      eventMapStartOffset w.store.events := by
  refine hw.invariant (I := fun w => Laid StoredEvent.storeOffset relay.db.nextEventOffset
    eventMapStartOffset w.store.events) .nil fun {w happening w'} h _ hstep => ?_
  refine hstep.of_operations (R := fun store store' =>
    Laid StoredEvent.storeOffset relay.db.nextEventOffset eventMapStartOffset store.events →
      Laid StoredEvent.storeOffset relay.db.nextEventOffset eventMapStartOffset store'.events)
    (fun _ h => h) (fun h h' hs => h' (h hs)) (fun o store hs => ?_) h
  rcases relay.db.events_handle o store with hsame | ⟨event, hstored⟩
  · rw [hsame]
    exact hs
  · rw [hstored]
    exact hs.concat rfl

end Tangle
