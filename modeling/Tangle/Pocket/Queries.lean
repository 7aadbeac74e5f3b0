import Mathlib.Control.Monad.Basic
import Mathlib.Data.List.Sort
import Tangle.Pocket.Event

/-!
# Pocket queries

A filter is what a request asks for; Pocket decides whether an event matches it, and finds the
stored events that do. While it searches, Pocket calls the relay's screen on one candidate after
another, and the screen tells it which of them to return. Which candidates it passes to the screen,
and in which order, is Pocket's own matter, so the search is a parameter (`PocketReads.findEvents`)
that works with a screen over any state; what the relay relies on are the laws below it.
-/

namespace Tangle

/-! ## Filters -/

/-- A filter of a request. A part that is absent is empty, or at the end of its range. -/
structure PocketFilter where
  ids : List EventId
  authors : List PublicKeyHex
  kinds : List UInt16
  tags : List (List TagValue)
  since : UnixTimestamp
  «until» : UnixTimestamp
  limit : UInt32
deriving DecidableEq

/-- The first instant there is. -/
def PocketTime.min : UnixTimestamp := 0

/-- The last instant there is. -/
def PocketTime.max : UnixTimestamp := 2 ^ 64 - 1

/-- A filter's limit when it has none. -/
def PocketFilter.noLimit : UInt32 := 0xFFFFFFFF

/-- How freely a filter that names little may search (`PocketQueryConfig`). -/
structure PocketQueryConfig where
  allowScraping : Bool
  allowScrapeIfLimitedTo : UInt32
  allowScrapeIfMaxSeconds : Nat
deriving DecidableEq

/-- A count may search everything. -/
def PocketQueryConfig.exactCount (query : PocketQueryConfig) : PocketQueryConfig :=
  { query with allowScraping := true }

/-! ## Searches -/

/-- What a screen says about a candidate. -/
inductive PocketScreenResult where
  | isMatch | mismatch | redacted
deriving DecidableEq

/-- What a search returns. -/
structure PocketScreenedEvents where
  events : List PocketEvent
  redacted : Bool
deriving DecidableEq

/-- A screen, which may keep a state between the candidates. -/
abbrev PocketScreen (σ : Type) : Type :=
  PocketEvent → StateM σ PocketScreenResult

/-- The functions of the Pocket library that the reading side of the relay calls, and what the
language says of bytes that are not text. -/
structure PocketReads where
  /-- The error with which `OwnedFilter::new` refuses the parts of a filter. -/
  refusesFilter : PocketFilter → Option String
  /-- `Filter::event_matches`. -/
  eventMatches : PocketFilter → PocketEvent → Except String Bool
  /-- `Store::find_events`, on a store that holds these events. -/
  findEvents : {σ : Type} → List StoredEvent → PocketFilter → PocketQueryConfig →
    PocketScreen σ → StateM σ (Except String PocketScreenedEvents)
  /-- `Store::get_event_by_offset`. -/
  eventByOffset : List StoredEvent → StoreOffset → Except String PocketEvent
  /-- The text of the error with which bytes that are not UTF-8 are refused. -/
  utf8Error : List UInt8 → String
  /-- `Filter::hyperloglog_offset`. -/
  hyperloglogOffset : PocketFilter → Except String (Option Nat)
  /-- The registers of a `Hll8`, and what is done with them. -/
  Hll8 : Type
  newHll8 : Hll8
  addElement : Hll8 → PublicKeyHex → Nat → Except String Hll8
  toHexString : Hll8 → String

namespace PocketReads

/-- `OwnedFilter::new`. -/
def newFilter (reads : PocketReads) (ids : List EventId) (authors : List PublicKeyHex)
    (kinds : List UInt16) (tags : List (List TagValue)) (since «until» : Option UnixTimestamp)
    (limit : Option UInt32) : Except String PocketFilter :=
  let filter : PocketFilter :=
    { ids, authors, kinds, tags, since := since.getD PocketTime.min,
      «until» := «until».getD PocketTime.max, limit := limit.getD PocketFilter.noLimit }
  match reads.refusesFilter filter with
  | some error => .error error
  | none => .ok filter

theorem filter_of_newFilter {reads : PocketReads} {ids : List EventId} {authors : List PublicKeyHex}
    {kinds : List UInt16} {tags : List (List TagValue)} {since «until» : Option UnixTimestamp}
    {limit : Option UInt32} {filter : PocketFilter}
    (h : reads.newFilter ids authors kinds tags since «until» limit = .ok filter) :
    filter = ⟨ids, authors, kinds, tags, since.getD PocketTime.min, «until».getD PocketTime.max,
      limit.getD PocketFilter.noLimit⟩ := by
  unfold newFilter at h
  dsimp only at h
  split at h
  · cases h
  · exact (Except.ok.inj h).symm

/-- A search returns only events that the screen called a match. -/
def ReturnsMatches (reads : PocketReads) : Prop :=
  ∀ {σ : Type} (events : List StoredEvent) (filter : PocketFilter) (query : PocketQueryConfig)
    (screen : PocketScreen σ) (s s' : σ) (screened : PocketScreenedEvents),
    (reads.findEvents events filter query screen).run s = (.ok screened, s') →
      ∀ event ∈ screened.events, ∃ t t', (screen event).run t = (.isMatch, t')

end PocketReads

/-! ## Searches for the newest events -/

/-- Newer events come first, and of those of one time the smaller id. -/
def NewerFirst (left right : PocketEvent) : Prop :=
  right.createdAt < left.createdAt ∨ (left.createdAt = right.createdAt ∧ left.id ≤ right.id)

instance : DecidableRel NewerFirst := fun _ _ => inferInstanceAs (Decidable (_ ∨ _))

instance : Std.Total NewerFirst := by
  refine ⟨fun a b => ?_⟩
  rcases lt_trichotomy a.createdAt b.createdAt with h | h | h
  · exact .inr (.inl h)
  · rcases le_total a.id b.id with hid | hid
    · exact .inl (.inr ⟨h, hid⟩)
    · exact .inr (.inr ⟨h.symm, hid⟩)
  · exact .inl (.inl h)

instance : IsTrans PocketEvent NewerFirst := by
  refine ⟨fun a b c hab hbc => ?_⟩
  rcases hab with hab | ⟨hab, hid⟩ <;> rcases hbc with hbc | ⟨hbc, hid'⟩
  · exact .inl (lt_trans hbc hab)
  · exact .inl (hbc ▸ hab)
  · exact .inl (hab ▸ hbc)
  · exact .inr ⟨hab.trans hbc, le_trans hid hid'⟩

/-- Only events of one id stand in both orders. -/
theorem NewerFirst.id_eq {a b : PocketEvent} (hab : NewerFirst a b) (hba : NewerFirst b a) :
    a.id = b.id := by
  rcases hab with hab | ⟨_, hid⟩
  · rcases hba with hba | ⟨heq, _⟩
    · exact absurd hab (lt_asymm hba)
    · exact absurd hab (heq ▸ lt_irrefl _)
  · rcases hba with hba | ⟨_, hid'⟩
    · next heq => exact absurd hba (heq ▸ lt_irrefl _)
    · exact le_antisymm hid hid'

/-- Events that ids tell apart stand in one order only. -/
theorem eq_of_newerFirst {l l' : List PocketEvent} (hperm : l.Perm l')
    (hids : (l.map PocketEvent.id).Nodup) (hl : l.Pairwise NewerFirst)
    (hl' : l'.Pairwise NewerFirst) : l = l' :=
  hperm.eq_of_pairwise (fun _ _ ha hb hab hba => List.inj_on_of_nodup_map hids ha
    (hperm.mem_iff.mpr hb) (NewerFirst.id_eq hab hba)) hl hl'

/-- The first of the events that a filter finds, as many as it is limited to. -/
def PocketFilter.takeLimit (filter : PocketFilter) (events : List PocketEvent) :
    List PocketEvent :=
  if filter.limit = PocketFilter.noLimit then events else events.take filter.limit.toNat

/-- On these candidates the screen decides by `decides`, as long as its state satisfies `holds`,
which it then goes on to do. -/
def PocketScreen.DecidesBy {σ : Type} (screen : PocketScreen σ) (holds : σ → Prop)
    (candidates : List PocketEvent) (decides : PocketEvent → PocketScreenResult) : Prop :=
  ∀ event ∈ candidates, ∀ s, holds s →
    ((screen event).run s).1 = decides event ∧ holds ((screen event).run s).2

/-- Takes in what the screen has said about an event. -/
def PocketScreenedEvents.add (screened : PocketScreenedEvents) (event : PocketEvent) :
    PocketScreenResult → PocketScreenedEvents
  | .isMatch => { screened with events := event :: screened.events }
  | .mismatch => screened
  | .redacted => { screened with redacted := true }

/-- Passes the candidates to the screen, one after another. -/
def PocketScreen.screenAll {σ : Type} (screen : PocketScreen σ) :
    List PocketEvent → StateM σ PocketScreenedEvents
  | [] => return ⟨[], false⟩
  | event :: rest => do
    let result ← screen event
    let screened ← screenAll screen rest
    return screened.add event result

theorem PocketScreen.run_screenAll_cons {σ : Type} {screen : PocketScreen σ} {event : PocketEvent}
    {rest : List PocketEvent} {s : σ} : (screen.screenAll (event :: rest)).run s =
      (((screen.screenAll rest).run ((screen event).run s).2).1.add event ((screen event).run s).1,
        ((screen.screenAll rest).run ((screen event).run s).2).2) :=
  rfl

/-- How Pocket searches: of the events that can be found it returns the newest that match the filter
and that the screen calls a match, and it says whether the screen has hidden one. Which events it
passes to the screen is left open. -/
structure PocketSearch (reads : PocketReads) where
  /-- The stored events that can be found. -/
  findable : List StoredEvent → List PocketEvent
  /-- The error with which a search for too much is refused. -/
  refusesSearch : PocketFilter → PocketQueryConfig → Option String
  /-- The events that are passed to a screen that decides so. -/
  screened : List StoredEvent → PocketFilter → PocketQueryConfig →
    (PocketEvent → PocketScreenResult) → List PocketEvent
  nodup_findable : ∀ events, ((findable events).map PocketEvent.id).Nodup
  stored_of_findable : ∀ {events event}, event ∈ findable events →
    ∃ item ∈ events, item.event = event
  findable_of_screened : ∀ {events filter query decides event},
    event ∈ screened events filter query decides → event ∈ findable events
  refused : ∀ {σ : Type} {events filter query} {screen : PocketScreen σ} {s : σ} {error : String},
    refusesSearch filter query = some error →
      ((reads.findEvents events filter query screen).run s).1 = .error error
  found : ∀ {σ : Type} {events filter query} {screen : PocketScreen σ} {holds : σ → Prop}
    {decides : PocketEvent → PocketScreenResult} {s : σ},
    refusesSearch filter query = none →
    screen.DecidesBy holds (findable events) decides → holds s →
      ∃ found s', (reads.findEvents events filter query screen).run s =
          (.ok ⟨found, (screened events filter query decides).any fun event =>
            decides event == .redacted⟩, s') ∧ holds s' ∧
        found.Perm (filter.takeLimit (((findable events).filter fun event =>
          reads.eventMatches filter event = .ok true ∧ decides event = .isMatch).insertionSort
            NewerFirst))

/-- A search that may scrape and has no limit passes every event that can be found and matches the
filter to the screen. -/
def PocketSearch.ScreensAll {reads : PocketReads} (search : PocketSearch reads) : Prop :=
  ∀ {σ : Type} (events : List StoredEvent) (filter : PocketFilter) (query : PocketQueryConfig)
    (screen : PocketScreen σ) (s s' : σ) (screened : PocketScreenedEvents),
    filter.limit = PocketFilter.noLimit → query.allowScraping = true →
    (reads.findEvents events filter query screen).run s = (.ok screened, s') →
      ∃ candidates found, (candidates.map PocketEvent.id).Nodup ∧
        (∀ event ∈ candidates, event ∈ search.findable events) ∧
        (∀ event ∈ search.findable events, reads.eventMatches filter event = .ok true →
          event ∈ candidates) ∧
        (screen.screenAll candidates).run s = (⟨found, screened.redacted⟩, s') ∧
        screened.events.Perm found

/-- Whether a filter matches can always be told. -/
def PocketReads.MatchesTotal (reads : PocketReads) : Prop :=
  ∀ filter event, ∃ matched, reads.eventMatches filter event = .ok matched

/-- Whether a filter matches does not depend on its limit. -/
def PocketReads.MatchesApartFromLimit (reads : PocketReads) : Prop :=
  ∀ (filter : PocketFilter) (limit : UInt32),
    reads.eventMatches { filter with limit } = reads.eventMatches filter

end Tangle
