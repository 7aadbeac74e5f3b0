import Mathlib.Data.List.Dedup
import Tangle.Relay.HiddenReads

/-!
# The results of a query

Each filter of a query finds the newest events that it matches and that the reader may see, as many
as it is limited to; a filter without a limit gets the default one. A query returns what its filters
find, once each and the newest first, so it does not matter in which order
the filters stand, or whether one stands twice.
-/

namespace Tangle

/-! ## Events in their order -/

/-- An event is newer than another, or of the same time with a smaller id. -/
def StrictlyNewer (left right : PocketEvent) : Prop :=
  right.createdAt < left.createdAt ∨ (left.createdAt = right.createdAt ∧ left.id < right.id)

/-- Of two events with different ids the one that sorts first is strictly newer. -/
theorem strictlyNewer_of_newerFirst {left right : PocketEvent} (h : NewerFirst left right)
    (hid : left.id ≠ right.id) : StrictlyNewer left right :=
  h.imp_right fun ⟨heq, hle⟩ => ⟨heq, lt_of_le_of_ne hle hid⟩

/-- Where no key comes twice and none was seen before, everything is kept. -/
theorem firstsBy_eq_self {α κ : Type} [LinearOrder κ] {key : α → κ} {seen : BTreeSet κ} {l : List α}
    (hnodup : (l.map key).Nodup) (hnew : ∀ a ∈ l, key a ∉ seen) : firstsBy key seen l = l := by
  induction l generalizing seen with
  | nil => rfl
  | cons a rest ih =>
    obtain ⟨hhead, hrest⟩ := List.nodup_cons.1 hnodup
    rw [firstsBy, if_neg (hnew a List.mem_cons_self), ih hrest fun b hmem hseen => ?_]
    rcases BTreeSet.mem_insert.1 hseen with heq | hseen
    · exact hhead (heq ▸ List.mem_map_of_mem hmem)
    · exact hnew b (List.mem_cons_of_mem _ hmem) hseen

section
variable {events : List PocketEvent}

/-- Sorting changes nothing where the events are in their order, each once. -/
theorem sortAndDedupe_eq_self (hids : (events.map PocketEvent.id).Nodup)
    (hsorted : events.Pairwise NewerFirst) :
    BaseRelay.sortAndDedupeQueryEvents events = events := by
  unfold BaseRelay.sortAndDedupeQueryEvents
  rw [List.Pairwise.insertionSort_eq hsorted]
  exact firstsBy_eq_self hids fun _ _ => BTreeSet.not_mem_empty

/-- What is sorted stands in the order of the events, each id once. -/
theorem sortAndDedupe_pairwise :
    (BaseRelay.sortAndDedupeQueryEvents events).Pairwise StrictlyNewer := by
  have hsorted : (BaseRelay.sortAndDedupeQueryEvents events).Pairwise NewerFirst :=
    (List.pairwise_insertionSort NewerFirst events).sublist firstsBy_sublist
  have hids : ((BaseRelay.sortAndDedupeQueryEvents events).map PocketEvent.id).Nodup :=
    nodup_keys_firstsBy
  exact (hsorted.and (List.pairwise_map.1 hids)).imp fun ⟨hnewer, hid⟩ =>
    strictlyNewer_of_newerFirst hnewer hid

/-- Events that are told apart by their ids are all kept. -/
theorem mem_sortAndDedupe (hinj : ∀ a ∈ events, ∀ b ∈ events, a.id = b.id → a = b)
    {event : PocketEvent} :
    event ∈ BaseRelay.sortAndDedupeQueryEvents events ↔ event ∈ events := by
  have hperm := List.perm_insertionSort NewerFirst events
  unfold BaseRelay.sortAndDedupeQueryEvents
  constructor
  · exact fun hmem => hperm.mem_iff.1 (mem_of_mem_firstsBy hmem)
  · intro hmem
    have hid : event.id ∈ (firstsBy PocketEvent.id ∅ (events.insertionSort NewerFirst)).map
        PocketEvent.id :=
      mem_keys_firstsBy.2 ⟨List.mem_map_of_mem (hperm.mem_iff.2 hmem), BTreeSet.not_mem_empty⟩
    obtain ⟨kept, hkept, hsame⟩ := List.mem_map.1 hid
    rw [hinj event hmem kept (hperm.mem_iff.1 (mem_of_mem_firstsBy hkept)) hsame.symm]
    exact hkept

/-- Events that are told apart by their ids are sorted, each once. -/
theorem sortAndDedupe_eq_dedup (hinj : ∀ a ∈ events, ∀ b ∈ events, a.id = b.id → a = b) :
    BaseRelay.sortAndDedupeQueryEvents events = events.dedup.insertionSort NewerFirst := by
  have hids : ((BaseRelay.sortAndDedupeQueryEvents events).map PocketEvent.id).Nodup :=
    nodup_keys_firstsBy
  refine eq_of_newerFirst ?_ hids
    ((List.pairwise_insertionSort NewerFirst events).sublist firstsBy_sublist)
    (List.pairwise_insertionSort _ _)
  have hperm := List.perm_insertionSort NewerFirst events.dedup
  refine ((List.perm_ext_iff_of_nodup hids.of_map (List.nodup_dedup events)).2
    fun event => ?_).trans
    hperm.symm
  rw [mem_sortAndDedupe hinj, List.mem_dedup]

end

/-! ## One filter -/

namespace RelayServices

variable (services : RelayServices) (search : PocketSearch services.reads) (auth : GroupAuthContext)

/-- The limit of the search for a filter: without a limit it gets the default one. -/
def searchedLimit (filter : PocketFilter) : UInt32 :=
  if filter.limit = PocketFilter.noLimit then
    UInt32.ofNat services.limits.defaultLimit
  else
    filter.limit

/-- The events that a filter matches and that the reader may see, in their order. -/
def visibleMatches (filter : PocketFilter) : List PocketEvent :=
  ((search.findable services.events).filter fun event =>
    services.reads.eventMatches filter event = .ok true ∧
      BaseRelay.groupReadGateVisibleToAuth services.groups event auth = .ok true).insertionSort
        NewerFirst

/-- The newest events that a filter matches and that the reader may see, as many as the filter is
limited to. -/
def newestVisible (filter : PocketFilter) : List PocketEvent :=
  (services.visibleMatches search auth filter).take
    (services.limits.effectivePocketFilterLimit filter)

/-- A search for a filter with this limit screens an event that the reader may not see. -/
def screensHidden (limit : UInt32) (filter : PocketFilter) : Bool :=
  (search.screened services.events { filter with limit } services.query
    (services.screens { filter with limit } auth)).any fun event =>
      services.screens { filter with limit } auth event == .redacted

/-- Pocket takes a filter with this limit, and searches for it. -/
structure TakesLimit (filter : PocketFilter) (limit : UInt32) : Prop where
  taken : services.reads.refusesFilter { filter with limit } = none
  searched : search.refusesSearch { filter with limit } services.query = none

/-- Pocket takes the filters again that it has taken from the client, searches for them, and can
tell what they match. -/
structure Searchable (filters : List PocketFilter) : Prop where
  matchesTotal : services.reads.MatchesTotal
  matchesApartFromLimit : services.reads.MatchesApartFromLimit
  takes : ∀ filter ∈ filters, services.TakesLimit search filter (services.searchedLimit filter)

/-- The read gate tells of every event that can be found whether the reader may see it. -/
def GateDecides : Prop :=
  ∀ event ∈ search.findable services.events,
    (BaseRelay.groupReadGateVisibleToAuth services.groups event auth).Succeeds

end RelayServices

section
variable {services : RelayServices} {search : PocketSearch services.reads} {auth : GroupAuthContext}
  {filter : PocketFilter} {filters : List PocketFilter}

/-- Filters among searchable ones are searchable. -/
theorem RelayServices.Searchable.sub {filters' : List PocketFilter}
    (h : services.Searchable search filters)
    (hsub : ∀ filter ∈ filters', filter ∈ filters) : services.Searchable search filters' where
  matchesTotal := h.matchesTotal
  matchesApartFromLimit := h.matchesApartFromLimit
  takes filter hmem := h.takes filter (hsub filter hmem)

/-- A filter is rebuilt with nothing changed but its limit. -/
theorem newFilter_withLimit {limit : UInt32}
    (htaken : services.reads.refusesFilter { filter with limit } = none) :
    (services.reads.newFilter filter.ids filter.authors filter.kinds filter.tags
      (if filter.since ≠ PocketTime.min then some filter.since else none)
      (if filter.until ≠ PocketTime.max then some filter.until else none)
      (if limit ≠ PocketFilter.noLimit then some limit else none)).mapError BaseRelayError.error =
        .ok { filter with limit } := by
  have hpart {α : Type} [DecidableEq α] (a absent : α) :
      (if a ≠ absent then some a else none).getD absent = a := by
    split
    · rfl
    · next h => exact (not_not.1 h).symm
  unfold PocketReads.newFilter
  rw [hpart, hpart, hpart]
  dsimp only
  rw [htaken]
  rfl

/-- A filter's limit for a search is its own, or the default. -/
theorem pocketFilterWithLimitMode_default (hdefault : services.limits.defaultLimit < 2 ^ 32)
    (htakes : services.TakesLimit search filter (services.searchedLimit filter)) :
    services.pocketFilterWithLimitMode filter .applyDefaultLimit =
      .ok { filter with limit := services.searchedLimit filter } := by
  have hnew := newFilter_withLimit htakes.taken
  unfold RelayServices.pocketFilterWithLimitMode
  unfold RelayServices.searchedLimit at hnew ⊢
  dsimp only
  by_cases hnone : filter.limit = PocketFilter.noLimit
  · rw [if_pos hnone] at hnew ⊢
    rw [if_pos hnone, if_pos hdefault]
    exact hnew
  · rw [if_neg hnone] at hnew ⊢
    rw [if_neg hnone]
    exact hnew

/-- What a limit leaves of a list is part of it, in order. -/
theorem PocketFilter.takeLimit_sublist (filter : PocketFilter) (events : List PocketEvent) :
    (filter.takeLimit events).Sublist events := by
  unfold PocketFilter.takeLimit
  split
  · exact List.Sublist.refl _
  · exact List.take_sublist _ _

/-- A search's limit cuts nothing off that a smaller one leaves. -/
theorem take_takeLimit {limit : UInt32} {n : Nat} (events : List PocketEvent)
    (h : limit ≠ PocketFilter.noLimit → n ≤ limit.toNat) :
    (({ filter with limit } : PocketFilter).takeLimit events).take n = events.take n := by
  unfold PocketFilter.takeLimit
  split
  · rfl
  · next hlimit => rw [List.take_take, Nat.min_eq_left (h hlimit)]

/-- A filter's search goes as far as the filter's limit. -/
theorem effectivePocketFilterLimit_le (hdefault : services.limits.defaultLimit < 2 ^ 32)
    (filter : PocketFilter) :
    services.limits.effectivePocketFilterLimit filter ≤ (services.searchedLimit filter).toNat := by
  unfold BaseRelayRequestLimits.effectivePocketFilterLimit RelayServices.searchedLimit
  split
  · rw [UInt32.toNat_ofNat_of_lt' hdefault]
  · exact le_rfl

/-- The visible matches stand in their order, each id once. -/
theorem visibleMatches_sorted (services : RelayServices) (search : PocketSearch services.reads)
    (auth : GroupAuthContext) (filter : PocketFilter) :
    ((services.visibleMatches search auth filter).map PocketEvent.id).Nodup ∧
      (services.visibleMatches search auth filter).Pairwise NewerFirst :=
  ⟨((List.perm_insertionSort NewerFirst _).map _).nodup_iff.2
    ((search.nodup_findable services.events).sublist (List.filter_sublist.map _)),
    List.pairwise_insertionSort _ _⟩

/-- An event is sent exactly when the screen says that it matches. -/
theorem screens_eq_isMatch {event : PocketEvent} :
    services.screens filter auth event = .isMatch ↔
      services.screenDecision filter auth event = .ok .isMatch := by
  unfold RelayServices.screens
  cases services.screenDecision filter auth event with
  | error error => exact iff_of_false nofun nofun
  | ok result => exact ⟨congrArg Except.ok, Except.ok.inj⟩

/-- A search finds the newest visible matches, as many as its limit says, and is denied when it has
screened a hidden one. -/
theorem queryFilterEventsReport_limited (hmatches : services.reads.MatchesTotal)
    (happart : services.reads.MatchesApartFromLimit) (hgate : services.GateDecides search auth)
    {limitMode : BaseRelayFilterLimitMode} {limit : UInt32}
    (hfilter : services.pocketFilterWithLimitMode filter limitMode = .ok { filter with limit })
    (htakes : services.TakesLimit search filter limit) :
    ∃ found, services.queryFilterEventsReport services.query filter auth limitMode = .ok found ∧
      BaseRelay.sortAndDedupeQueryEvents found.events =
        ({ filter with limit } : PocketFilter).takeLimit
          (services.visibleMatches search auth filter) ∧
      found.groupReadDenied = services.screensHidden search auth limit filter := by
  have hsame := happart filter limit
  have hdecided : ∀ event ∈ search.findable services.events,
      (services.screenDecision { filter with limit } auth event).Succeeds := by
    intro event hevent
    obtain ⟨matched, hmatched⟩ := hmatches { filter with limit } event
    obtain ⟨visible, hvisible⟩ := hgate event hevent
    cases matched with
    | false => exact ⟨_, screenDecision_eq_ok.2 (.inl ⟨hmatched, rfl⟩)⟩
    | true => exact ⟨_, screenDecision_eq_ok.2 (.inr ⟨hmatched, visible, hvisible, rfl⟩)⟩
  have hscreens : ((search.findable services.events).filter fun event =>
      services.reads.eventMatches { filter with limit } event = .ok true ∧
        services.screens { filter with limit } auth event = .isMatch).insertionSort NewerFirst =
      services.visibleMatches search auth filter := by
    refine congrArg (List.insertionSort NewerFirst)
      (List.filter_congr fun event _ => decide_eq_decide.2 ?_)
    rw [screens_eq_isMatch, screenDecision_eq_isMatch, hsame]
    exact ⟨fun h => h.2, fun h => ⟨h.1, h⟩⟩
  obtain ⟨found, hfound, hperm, hdenied⟩ := @queryFilterEventsReport_found services search _ _ _
    services.query _ hfilter htakes.searched hdecided
  rw [hscreens] at hperm
  have hpart := PocketFilter.takeLimit_sublist { filter with limit }
    (services.visibleMatches search auth filter)
  obtain ⟨hids, hsorted⟩ := visibleMatches_sorted services search auth filter
  have hids := hids.sublist (hpart.map PocketEvent.id)
  refine ⟨found, hfound, ?_, hdenied⟩
  rw [sortAndDedupe_eq hperm ((hperm.map _).nodup_iff.2 hids),
    sortAndDedupe_eq_self hids (hsorted.sublist hpart)]

/-- A filter's search, sorted and cut, is the newest that the reader may see. -/
theorem queryNextFilter_eq (hdefault : services.limits.defaultLimit < 2 ^ 32)
    (hsearchable : services.Searchable search filters) (hgate : services.GateDecides search auth)
    (hmem : filter ∈ filters) (report : BaseRelayEventQueryReport) :
    ∃ next, services.queryNextFilter auth report filter = .ok next ∧
      next.events = report.events ++ services.newestVisible search auth filter ∧
      next.groupReadDenied = (report.groupReadDenied ||
        services.screensHidden search auth (services.searchedLimit filter) filter) := by
  have htakes := hsearchable.takes filter hmem
  obtain ⟨found, hfound, hevents, hdenied⟩ :=
    queryFilterEventsReport_limited hsearchable.matchesTotal
    hsearchable.matchesApartFromLimit hgate (pocketFilterWithLimitMode_default hdefault htakes)
    htakes
  refine ⟨⟨report.events ++ (BaseRelay.sortAndDedupeQueryEvents found.events).take
    (services.limits.effectivePocketFilterLimit filter),
    report.groupReadDenied || found.groupReadDenied,
    report.queryMetrics.add found.queryMetrics⟩, ?_, ?_, ?_⟩
  · unfold RelayServices.queryNextFilter
    rw [hfound]
    rfl
  · dsimp only
    rw [hevents, take_takeLimit _ fun _ => effectivePocketFilterLimit_le hdefault filter]
    rfl
  · dsimp only
    rw [hdenied]

/-! ## All filters -/

/-- **Answering filters one by one gathers the newest visible events of each**, and notes whether
any was held back. By induction on the filters. -/
theorem queryFilters_eq (hdefault : services.limits.defaultLimit < 2 ^ 32)
    (hsearchable : services.Searchable search filters) (hgate : services.GateDecides search auth)
    (report : BaseRelayEventQueryReport) :
    ∃ report', filters.foldlM (services.queryNextFilter auth) report = .ok report' ∧
      report'.events = report.events ++ filters.flatMap (services.newestVisible search auth) ∧
      report'.groupReadDenied = (report.groupReadDenied || filters.any fun filter =>
        services.screensHidden search auth (services.searchedLimit filter) filter) := by
  induction filters generalizing report with
  | nil => exact ⟨report, rfl, (List.append_nil _).symm, (Bool.or_false _).symm⟩
  | cons filter rest ih =>
    obtain ⟨next, hnext, hevents, hdenied⟩ :=
      queryNextFilter_eq hdefault hsearchable hgate List.mem_cons_self report
    obtain ⟨report', hreport, hall, hanyDenied⟩ :=
      ih (hsearchable.sub fun _ hmem => List.mem_cons_of_mem _ hmem) next
    refine ⟨report', Except.foldlM_cons_ok.2 ⟨next, hnext, hreport⟩, ?_, ?_⟩
    · rw [hall, hevents, List.flatMap_cons, List.append_assoc]
    · rw [hanyDenied, hdenied, List.any_cons, Bool.or_assoc]

/-- What a filter finds can be found. -/
theorem findable_of_newestVisible {event : PocketEvent}
    (h : event ∈ services.newestVisible search auth filter) :
    event ∈ search.findable services.events :=
  List.mem_of_mem_filter ((List.perm_insertionSort _ _).mem_iff.1 (List.mem_of_mem_take h))

/-- A query returns the newest events of each of its filters, all in their order and once each. Its
filters may stand in any order, and one may stand twice. -/
theorem queryEventsReport_newest (hdefault : services.limits.defaultLimit < 2 ^ 32)
    (hsearchable : services.Searchable search filters) (hgate : services.GateDecides search auth) :
    ∃ report, services.queryEventsReport filters auth = .ok report ∧
      report.events.Pairwise StrictlyNewer ∧ (report.events.map PocketEvent.id).Nodup ∧
      report.events = ((filters.flatMap (services.newestVisible search auth)).dedup.insertionSort
        NewerFirst) ∧
      ∀ filters', (∀ filter, filter ∈ filters' ↔ filter ∈ filters) →
        ∃ report', services.queryEventsReport filters' auth = .ok report' ∧
          report'.events = report.events := by
  have hreturned {filters : List PocketFilter} (hsearchable : services.Searchable search filters) :
      ∃ report, services.queryEventsReport filters auth = .ok report ∧ report.events =
        BaseRelay.sortAndDedupeQueryEvents
          (filters.flatMap (services.newestVisible search auth)) := by
    obtain ⟨report, hreport, hevents, -⟩ :=
      queryFilters_eq hdefault hsearchable hgate ⟨[], false, .default⟩
    have hsorted := congrArg BaseRelay.sortAndDedupeQueryEvents hevents
    refine ⟨⟨BaseRelay.sortAndDedupeQueryEvents report.events, report.groupReadDenied,
      report.queryMetrics.withReturnedEvents
        (BaseRelay.sortAndDedupeQueryEvents report.events).length⟩, ?_, hsorted⟩
    unfold RelayServices.queryEventsReport
    rw [hreport]
    rfl
  have hinj {filters : List PocketFilter} :
      ∀ a ∈ filters.flatMap (services.newestVisible search auth),
        ∀ b ∈ filters.flatMap (services.newestVisible search auth), a.id = b.id → a = b := by
    intro a ha b hb hid
    obtain ⟨_, -, ha⟩ := List.mem_flatMap.1 ha
    obtain ⟨_, -, hb⟩ := List.mem_flatMap.1 hb
    exact List.inj_on_of_nodup_map (search.nodup_findable services.events)
      (findable_of_newestVisible ha) (findable_of_newestVisible hb) hid
  obtain ⟨report, hreport, hevents⟩ := hreturned hsearchable
  refine ⟨report, hreport, ?_, ?_, ?_, fun filters' hsame => ?_⟩
  · rw [hevents]
    exact sortAndDedupe_pairwise
  · rw [hevents]
    exact nodup_keys_firstsBy
  · rw [hevents]
    exact sortAndDedupe_eq_dedup hinj
  · obtain ⟨report', hreport', hevents'⟩ :=
      hreturned (hsearchable.sub fun filter hmem => (hsame filter).1 hmem)
    refine ⟨report', hreport', ?_⟩
    rw [hevents, hevents', sortAndDedupe_eq_dedup hinj, sortAndDedupe_eq_dedup hinj]
    have hmem (event : PocketEvent) :
        event ∈ (filters'.flatMap (services.newestVisible search auth)).dedup ↔
          event ∈ (filters.flatMap (services.newestVisible search auth)).dedup := by
      simp only [List.mem_dedup, List.mem_flatMap, hsame]
    have hperm := (List.perm_ext_iff_of_nodup (List.nodup_dedup _) (List.nodup_dedup _)).2 hmem
    refine eq_of_newerFirst (((List.perm_insertionSort _ _).trans hperm).trans
      (List.perm_insertionSort _ _).symm) ?_ (List.pairwise_insertionSort _ _)
      (List.pairwise_insertionSort _ _)
    rw [← sortAndDedupe_eq_dedup hinj]
    exact nodup_keys_firstsBy

/-- While the relay runs, the gate decides on every event that can be found. -/
theorem gateDecides_of_reachable {reads : PocketReads} {relay : Relay} {search : PocketSearch reads}
    {limits : BaseRelayRequestLimits} {query : PocketQueryConfig} {state : GroupServiceState}
    {store : PocketStore} (hreached : relay.Reachable (.up (some state) store)) :
    (servicesOf reads limits query state store).GateDecides search auth := by
  intro event hevent
  obtain ⟨visible, hvisible⟩ := @exists_eventVisibleToAuth event auth state
    (class_of_findable hreached hevent)
  exact ⟨visible, Except.mapError_eq_ok.2 hvisible⟩

end

namespace Sample

/-- What a request is answered from, on a store of these events. -/
def servicesWith (groups : Option GroupServiceState) (events : List PocketEvent) :
    RelayServices where
  reads := plainReads
  events := events.map fun event => ⟨event, 0⟩
  groups := groups
  limits := ⟨64, 10, 100, 1000, 500, 100⟩
  query := ⟨false, 100, 3600⟩

/-- The plain search can answer any filters. -/
theorem searchable_servicesWith (groups : Option GroupServiceState) (events : List PocketEvent)
    (filters : List PocketFilter) :
    (servicesWith groups events).Searchable plainSearch filters where
  matchesTotal := plainReads_matchesTotal
  matchesApartFromLimit _ _ := rfl
  takes _ _ := ⟨rfl, rfl⟩

/-- The theorem at two filters that both find one note: the note is returned once, behind the newer
one that only the first filter finds. -/
theorem queryEventsReport_newest_notes : ∃ report,
    (servicesWith none [note 20, note 30, note 40]).queryEventsReport
      [{ anything with limit := 2 }, { anything with «until» := 30, limit := 1 }] .unauthenticated =
        .ok report ∧ report.events = [note 40, note 30] := by
  have hdefault : (100 : Nat) < 2 ^ 32 := by decide
  obtain ⟨report, hreport, -, -, hevents, -⟩ := @queryEventsReport_newest
    (servicesWith none [note 20, note 30, note 40]) plainSearch .unauthenticated _ hdefault
    (searchable_servicesWith _ _ _) (fun _ _ => ⟨true, rfl⟩)
  refine ⟨report, hreport, hevents.trans ?_⟩
  decide +kernel

/-- A note with a group tag that names no group. -/
def groupless : PocketEvent :=
  .ofTexts (eventId 9 50 []) member 9 50 [["h".toList]]

/-- A query meets a stored event that the read gate cannot tell of, since it has a group tag that
names no group. The query ends with the gate's error, and the events it has found are not
returned. -/
theorem groupless_fails_query : ∃ state : GroupServiceState,
    let services := servicesWith (some state) [note 20, groupless]
    services.limits.defaultLimit < 2 ^ 32 ∧
      services.limits.validatePocketFilters [anything] = .ok () ∧
      services.Searchable plainSearch [anything] ∧
      ¬ (services.queryEventsReport [anything] .unauthenticated).Succeeds := by
  have hends : relay.ScriptEnds (fun _ _ => true) [.start config 100] fun state _ =>
      ¬ ((servicesWith (some state) [note 20, groupless]).queryEventsReport [anything]
        .unauthenticated).Succeeds := by
    decide +kernel
  obtain ⟨state, _, -, hfails⟩ := hends.reaches
  have hdefault : (100 : Nat) < 2 ^ 32 := by decide
  exact ⟨state, hdefault, rfl, searchable_servicesWith _ _ _, hfails⟩

end Sample

end Tangle
