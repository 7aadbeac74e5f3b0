import Tangle.Relay.QueryResults

/-!
# Projections that change nothing

A session's hooks may have a request searched further than its limits, so that enough is left when
they have suppressed some events. Hooks that emit every event leave the events of a reply as they
are, whichever way the request is searched. What they do not leave is the end of the reply: a search
that goes further screens more events, and the reply is refused when one of them is hidden.
-/

namespace Tangle

/-! ## Steps that return whatever the hooks' state is -/

/-- From every state of the hooks the step returns `a`. -/
def HookM.Yields {σ α : Type} (x : HookM σ α) (a : α) : Prop :=
  ∀ s, ∃ s', x.run s = .ok (a, s')

namespace HookM.Yields

variable {σ α β : Type}

/-- Returning a value yields it, whatever the hooks' state. -/
theorem pure (a : α) : Yields (pure a : HookM σ α) a :=
  fun s => ⟨s, rfl⟩

/-- One step after another yields what the second does. -/
theorem bind {x : HookM σ α} {a : α} {f : α → HookM σ β} {b : β} (hx : Yields x a)
    (hf : Yields (f a) b) : Yields (x >>= f) b := by
  intro s
  obtain ⟨s', hs'⟩ := hx s
  obtain ⟨s'', hs''⟩ := hf s'
  refine ⟨s'', ?_⟩
  rw [StateT.run_bind, hs']
  exact hs''

/-- A computation that succeeds yields its value. -/
theorem liftM {x : Except BaseRelayError α} {a : α} (h : x = .ok a) :
    Yields (liftM x : HookM σ α) a := by
  subst h
  exact fun s => ⟨s, rfl⟩

/-- A hook that always answers `a`. -/
theorem call {hook : StateM σ α} {a : α} (h : ∀ s, (hook.run s).1 = a) : Yields (call hook) a := by
  intro s
  rw [← h s]
  exact ⟨(hook.run s).2, rfl⟩

/-- A step for each item of a list yields the list of what the steps yield. -/
theorem mapM {l : List α} {f : α → HookM σ β} {g : α → β} (h : ∀ a ∈ l, Yields (f a) (g a)) :
    Yields (l.mapM f) (l.map g) := by
  induction l with
  | nil => exact pure []
  | cons a rest ih =>
    rw [List.mapM_cons, List.map_cons]
    exact (h a List.mem_cons_self).bind
      ((ih fun b hmem => h b (List.mem_cons_of_mem _ hmem)).bind (pure _))

end HookM.Yields

/-! ## Hooks that emit every event -/

/-- The hooks emit every event as it is. -/
def RelayRuntimeHooks.EmitsAll {σ : Type} (hooks : RelayRuntimeHooks σ) : Prop :=
  ∀ context s, ((hooks.projectEvent context).run s).1 = .emit

/-- The hooks can be shown every event that can be found. -/
def RelayServices.AllText (services : RelayServices)
    (search : PocketSearch services.reads) : Prop :=
  ∀ event ∈ search.findable services.events,
    (RelayEventContext.fromPocketEvent services.reads event).Succeeds

section
variable {σ : Type} {relay : RelayDeliveries σ} {search : PocketSearch relay.reads}
  {auth : GroupAuthContext} {projection : RelayProjectionContext} {subscriptionId : SubscriptionId}
  {filter : PocketFilter} {filters : List PocketFilter} {event : PocketEvent}

/-- The filters that match are always found, and there is one where one matches. -/
theorem filtersMatchedFrom_succeeds (services : RelayServices)
    (hmatches : services.reads.MatchesTotal)
    (event : PocketEvent) (filters : List PocketFilter) (filterIndex : Nat) :
    ∃ matched, services.filtersMatchedFrom event filterIndex filters = .ok matched ∧
      ((∃ filter ∈ filters, services.reads.eventMatches filter event = .ok true) →
        matched ≠ []) := by
  induction filters generalizing filterIndex with
  | nil => exact ⟨[], rfl, by simp⟩
  | cons filter rest ih =>
    obtain ⟨others, hothers, hsome⟩ := ih (filterIndex + 1)
    obtain ⟨matches', hmatched⟩ := hmatches filter event
    have hevent : services.eventMatches filter event = .ok matches' :=
      Except.mapError_eq_ok.2 hmatched
    rw [RelayServices.filtersMatchedFrom, hevent, hothers]
    refine ⟨_, rfl, ?_⟩
    rintro ⟨found, hmem, hfound⟩
    rcases List.mem_cons.1 hmem with rfl | hmem
    · rw [hmatched] at hfound
      cases hfound
      exact List.cons_ne_nil _ _
    · have hne := hsome ⟨found, hmem, hfound⟩
      split
      · exact List.cons_ne_nil _ _
      · exact hne

/-- **An event found is projected to itself** by hooks that emit all, when some filter matches it
and its tags are text. -/
theorem yields_projectFoundEvent (hemits : relay.hooks.EmitsAll)
    (hmatches : relay.reads.MatchesTotal)
    (htext : (RelayEventContext.fromPocketEvent relay.reads event).Succeeds)
    (hmatched : ∃ filter ∈ filters, relay.reads.eventMatches filter event = .ok true) :
    (relay.projectFoundEvent subscriptionId filters projection auth event).Yields (some event) := by
  obtain ⟨matched, hfound, hsome⟩ :=
    filtersMatchedFrom_succeeds relay.toRelayServices hmatches event filters 0
  obtain ⟨context, hcontext⟩ := htext
  have hfilters : relay.matchedFiltersForEvent filters event = .ok matched := by
    unfold RelayServices.matchedFiltersForEvent
    rw [hfound, Except.ok_bind, if_neg (by simpa using hsome hmatched)]
    rfl
  have hemit := HookM.Yields.call fun s => hemits
    { subscriptionId, projection, source := .historicalQuery
      matchedFilters := matched.map Prod.fst, event := context
      authenticatedPubkeys := auth.authenticatedPubkeys.toList } s
  exact (HookM.Yields.liftM hfilters).bind ((HookM.Yields.liftM hcontext).bind
    (hemit.bind (.pure _)))

/-! ## One filter -/

section
variable (services : RelayServices) (search : PocketSearch services.reads)

instance : DecidableRel StrictlyNewer := fun _ _ => inferInstanceAs (Decidable (_ ∨ _))

/-- A search for so many of the visible matches screens a hidden one. -/
def RelayServices.HiddenWithin (auth : GroupAuthContext) (limit : UInt32) (filter : PocketFilter) :
    Prop :=
  ∃ event ∈ search.findable services.events,
    services.reads.eventMatches filter event = .ok true ∧
      BaseRelay.groupReadGateVisibleToAuth services.groups event auth = .ok false ∧
      (limit = PocketFilter.noLimit ∨
        (services.visibleMatches search auth filter).countP
          (fun newer => StrictlyNewer newer event) <
          limit.toNat)

end

/-- A search screens the events that match a filter from the newest on, until as many are found as
the filter is limited to. -/
def PocketSearch.StopsAtLimit {reads : PocketReads} (search : PocketSearch reads) : Prop :=
  ∀ events filter query decides, ∀ event ∈ search.findable events,
    reads.eventMatches filter event = .ok true →
      (event ∈ search.screened events filter query decides ↔
        filter.limit = PocketFilter.noLimit ∨
          ((search.findable events).filter fun newer => reads.eventMatches filter newer = .ok true ∧
            decides newer = .isMatch).countP (fun newer => StrictlyNewer newer event) <
              filter.limit.toNat)

section
variable {services : RelayServices} {search : PocketSearch services.reads} {auth : GroupAuthContext}
  {filter : PocketFilter}

/-- An event is held back exactly when it matches and the gate does not let it through. -/
theorem screens_eq_redacted {event : PocketEvent} :
    services.screens filter auth event = .redacted ↔
      services.reads.eventMatches filter event = .ok true ∧
        BaseRelay.groupReadGateVisibleToAuth services.groups event auth = .ok false := by
  rw [← screenDecision_eq_redacted]
  unfold RelayServices.screens
  cases services.screenDecision filter auth event with
  | error error => exact iff_of_false nofun nofun
  | ok result => exact ⟨congrArg Except.ok, Except.ok.inj⟩

/-- The computation that looks for a hidden event finds one exactly when there is one among the
candidates that the search reaches. -/
theorem screensHidden_iff (hstops : search.StopsAtLimit)
    (happart : services.reads.MatchesApartFromLimit) {limit : UInt32} :
    services.screensHidden search auth limit filter = true ↔
      services.HiddenWithin search auth limit filter := by
  have hsame := happart filter limit
  have hcount (event : PocketEvent) :
      ((search.findable services.events).filter fun newer =>
        services.reads.eventMatches { filter with limit } newer = .ok true ∧
          services.screens { filter with limit } auth newer = .isMatch).countP
            (fun newer => StrictlyNewer newer event) =
        (services.visibleMatches search auth filter).countP
          (fun newer => StrictlyNewer newer event) := by
    unfold RelayServices.visibleMatches
    rw [(List.perm_insertionSort NewerFirst _).countP_eq]
    refine congrArg (List.countP _) (List.filter_congr fun newer _ => decide_eq_decide.2 ?_)
    rw [screens_eq_isMatch, screenDecision_eq_isMatch, hsame]
    exact ⟨fun h => h.2, fun h => ⟨h.1, h⟩⟩
  unfold RelayServices.screensHidden
  rw [List.any_eq_true]
  constructor
  · intro ⟨event, hscreened, hredacted⟩
    obtain ⟨hmatches, hhidden⟩ := screens_eq_redacted.1 (beq_iff_eq.1 hredacted)
    have hfindable := search.findable_of_screened hscreened
    have hbefore := (hstops _ _ _ _ event hfindable hmatches).1 hscreened
    rw [hcount] at hbefore
    exact ⟨event, hfindable, hsame ▸ hmatches, hhidden, hbefore⟩
  · intro ⟨event, hfindable, hmatches, hhidden, hbefore⟩
    have hmatches : services.reads.eventMatches { filter with limit } event = .ok true :=
      hsame ▸ hmatches
    refine ⟨event, (hstops _ _ _ _ event hfindable hmatches).2 ?_,
      beq_iff_eq.2 (screens_eq_redacted.2 ⟨hmatches, hhidden⟩)⟩
    rw [hcount]
    exact hbefore

/-- The searches for the filters go no further than the filters' limits. -/
theorem searchedLimit_le (hdefault : services.limits.defaultLimit < 2 ^ 32) {limit : UInt32}
    (hlimit : services.limits.effectivePocketFilterLimit filter ≤ limit.toNat) :
    (services.searchedLimit filter).toNat ≤ limit.toNat := by
  unfold BaseRelayRequestLimits.effectivePocketFilterLimit at hlimit
  unfold RelayServices.searchedLimit
  split
  · next hnone =>
    rw [if_pos hnone] at hlimit
    rw [UInt32.toNat_ofNat_of_lt' hdefault]
    exact hlimit
  · next hsome =>
    rw [if_neg hsome] at hlimit
    exact hlimit

/-- A search that goes further screens no less. -/
theorem HiddenWithin.further {limit limit' : UInt32}
    (h : services.HiddenWithin search auth limit filter) (hle : limit.toNat ≤ limit'.toNat) :
    services.HiddenWithin search auth limit' filter := by
  obtain ⟨event, hfindable, hmatches, hhidden, hbefore⟩ := h
  refine ⟨event, hfindable, hmatches, hhidden, hbefore.imp (fun heq => ?_) fun hlt => ?_⟩
  · subst heq
    have hmax : (PocketFilter.noLimit).toNat = 2 ^ 32 - 1 := rfl
    have hlt := limit'.toNat_lt
    exact UInt32.toNat_inj.1 (by omega)
  · exact lt_of_lt_of_le hlt hle

end

/-- What the hooks make of one filter's events is what they are. -/
theorem yields_queryNextProjectedFilter (hemits : relay.hooks.EmitsAll)
    (hmatches : relay.reads.MatchesTotal) (happart : relay.reads.MatchesApartFromLimit)
    (htext : relay.toRelayServices.AllText search) (hgate : relay.GateDecides search auth)
    {candidateLimit : UInt32} (htakes : relay.TakesLimit search filter candidateLimit)
    (hlimit : relay.limits.effectivePocketFilterLimit filter ≤ candidateLimit.toNat)
    (hmem : filter ∈ filters) (report : BaseRelayEventQueryReport) :
    ∃ next, (relay.queryNextProjectedFilter subscriptionId filters auth projection candidateLimit
        report filter).Yields next ∧
      next.events = report.events ++ relay.newestVisible search auth filter ∧
      next.groupReadDenied = (report.groupReadDenied ||
        relay.screensHidden search auth candidateLimit filter) := by
  have hoverride : relay.pocketFilterWithLimitMode filter (.override candidateLimit) =
      .ok { filter with limit := candidateLimit } :=
    newFilter_withLimit htakes.taken
  obtain ⟨found, hfound, hevents, hdenied⟩ :=
    queryFilterEventsReport_limited hmatches happart hgate hoverride htakes
  have hpart := PocketFilter.takeLimit_sublist { filter with limit := candidateLimit }
    (relay.visibleMatches search auth filter)
  obtain ⟨hids, hsorted⟩ := visibleMatches_sorted relay.toRelayServices search auth filter
  have hprojected : HookM.Yields ((BaseRelay.sortAndDedupeQueryEvents found.events).mapM
      (relay.projectFoundEvent subscriptionId filters projection auth))
      ((BaseRelay.sortAndDedupeQueryEvents found.events).map some) := by
    refine HookM.Yields.mapM fun event hevent => ?_
    rw [hevents] at hevent
    obtain ⟨hfindable, hmatched⟩ := List.mem_filter.1
      ((List.perm_insertionSort NewerFirst _).mem_iff.1 (hpart.mem hevent))
    exact yields_projectFoundEvent hemits hmatches (htext event hfindable)
      ⟨filter, hmem, (of_decide_eq_true hmatched).1⟩
  refine ⟨_, (HookM.Yields.liftM hfound).bind (hprojected.bind (.pure _)), ?_, ?_⟩
  · dsimp only
    have hall (events : List PocketEvent) : (events.map some).reduceOption = events := by
      rw [List.reduceOption, List.filterMap_map]
      exact List.filterMap_some
    rw [hall, hevents, sortAndDedupe_eq_self (hids.sublist (hpart.map _))
      (hsorted.sublist hpart), take_takeLimit _ fun _ => hlimit]
    rfl
  · dsimp only
    rw [hdenied]

/-! ## Requests -/

/-- **Each filter of a projected query yields its newest visible events** up to its own limit. By
induction on the filters. -/
theorem yields_queryProjectedFilters (hemits : relay.hooks.EmitsAll)
    (hmatches : relay.reads.MatchesTotal) (happart : relay.reads.MatchesApartFromLimit)
    (htext : relay.toRelayServices.AllText search) (hgate : relay.GateDecides search auth)
    {candidateLimit : UInt32} {asked : List PocketFilter}
    (hasked : ∀ filter ∈ asked, filter ∈ filters ∧ relay.TakesLimit search filter candidateLimit ∧
      relay.limits.effectivePocketFilterLimit filter ≤ candidateLimit.toNat)
    (report : BaseRelayEventQueryReport) :
    ∃ report', HookM.Yields
      (asked.foldlM (relay.queryNextProjectedFilter subscriptionId filters auth
        projection candidateLimit) report) report' ∧
      report'.events = report.events ++ asked.flatMap (relay.newestVisible search auth) ∧
      report'.groupReadDenied = (report.groupReadDenied ||
        asked.any (relay.screensHidden search auth candidateLimit)) := by
  induction asked generalizing report with
  | nil => exact ⟨report, .pure _, (List.append_nil _).symm, (Bool.or_false _).symm⟩
  | cons filter rest ih =>
    obtain ⟨hmem, htakes, hlimit⟩ := hasked filter List.mem_cons_self
    obtain ⟨next, hnext, hevents, hdenied⟩ := yields_queryNextProjectedFilter hemits hmatches
      happart htext hgate htakes hlimit hmem report
    obtain ⟨report', hreport, hall, hanyDenied⟩ :=
      ih (fun filter hmem => hasked filter (List.mem_cons_of_mem _ hmem)) next
    refine ⟨report', hnext.bind hreport, ?_, ?_⟩
    · rw [hall, hevents, List.flatMap_cons, List.append_assoc]
    · rw [hanyDenied, hdenied, List.any_cons, Bool.or_assoc]

/-- The hooks leave the messages of a reply as they are, when each event is there once. -/
theorem yields_projectRuntimeMessages (hemits : relay.hooks.EmitsAll)
    (hmatches : relay.reads.MatchesTotal) {events : List PocketEvent}
    (hshown : ∀ event ∈ events, (RelayEventContext.fromPocketEvent relay.reads event).Succeeds ∧
      ∃ filter ∈ filters, relay.reads.eventMatches filter event = .ok true)
    (hids : (events.map PocketEvent.id).Nodup) (message : RelayMessage)
    {eventIds : BTreeSet EventId}
    (hnew : ∀ event ∈ events, event.id ∉ eventIds) :
    (relay.projectRuntimeMessages filters projection auth eventIds
      (events.map (.event subscriptionId) ++ [.relay message])).Yields
        (events.map (.event subscriptionId) ++ [.relay message]) := by
  induction events generalizing eventIds with
  | nil => exact HookM.Yields.bind (.pure []) (.pure _)
  | cons event rest ih =>
    obtain ⟨hhead, hrest⟩ := List.nodup_cons.1 hids
    obtain ⟨htext, hmatched⟩ := hshown event List.mem_cons_self
    rw [List.map_cons, List.cons_append, RelayDeliveries.projectRuntimeMessages]
    refine (yields_projectFoundEvent hemits hmatches htext hmatched).bind ?_
    dsimp only
    rw [if_neg (hnew event List.mem_cons_self)]
    refine (ih (fun event hmem => hshown event (List.mem_cons_of_mem _ hmem)) hrest
      fun other hmem hseen => ?_).bind (.pure _)
    rcases BTreeSet.mem_insert.1 hseen with heq | hseen
    · exact hhead (heq ▸ List.mem_map_of_mem hmem)
    · exact hnew other (List.mem_cons_of_mem _ hmem) hseen

/-- A request is searched, and its reply taken through the hooks (`query_req_with_auth_report`, then
`project_query_report`). -/
def RelayDeliveries.queryThenProject {σ : Type} (relay : RelayDeliveries σ)
    (subscriptionId : SubscriptionId) (filters : List PocketFilter) (searchPresent : Bool)
    (auth : GroupAuthContext) (projection : RelayProjectionContext) :
    HookM σ BaseRelayQueryReport := do
  let report ← liftM (relay.queryReqWithGroupAuth subscriptionId filters searchPresent auth)
  relay.projectQueryReport report filters projection auth

/-- An event among the newest visible ones matches the filter. -/
theorem matches_of_newestVisible {services : RelayServices} {search : PocketSearch services.reads}
    (h : event ∈ services.newestVisible search auth filter) :
    services.reads.eventMatches filter event = .ok true := by
  have hmem := (List.perm_insertionSort NewerFirst _).mem_iff.1 (List.mem_of_mem_take h)
  exact (of_decide_eq_true (List.mem_filter.1 hmem).2).1

/-- Hooks that emit every event leave the events of a reply as they are, whichever way the request
is searched. The two replies are the same, unless the further search screens a hidden event for one
of the filters and the nearer search for none. -/
theorem queryProjectedReq_emitsAll (hemits : relay.hooks.EmitsAll) (hstops : search.StopsAtLimit)
    (hdefault : relay.limits.defaultLimit < 2 ^ 32)
    (hvalid : relay.validateRequest subscriptionId filters = .ok ())
    (hsearchable : relay.Searchable search filters) (htext : relay.toRelayServices.AllText search)
    (hgate : relay.GateDecides search auth) {candidateLimit : UInt32}
    (hcandidates : ∀ filter ∈ filters, relay.TakesLimit search filter candidateLimit ∧
      relay.limits.effectivePocketFilterLimit filter ≤ candidateLimit.toNat)
    (searchPresent : Bool) :
    ∃ report report',
      (relay.queryThenProject subscriptionId filters searchPresent auth projection).Yields report ∧
      (relay.queryProjectedReq subscriptionId filters searchPresent auth projection
        candidateLimit).Yields report' ∧
      delivered report'.messages = delivered report.messages ∧
      (report'.messages = report.messages ↔ searchPresent = true ∨
        ((∃ filter ∈ filters, relay.HiddenWithin search auth candidateLimit filter) →
          ∃ filter ∈ filters,
            relay.HiddenWithin search auth (relay.searchedLimit filter) filter)) := by
  cases hsearch : BaseRelay.unsupportedSearchPresentClosed subscriptionId searchPresent with
  | some message =>
    have hpresent : searchPresent = true := by
      cases searchPresent with
      | true => rfl
      | false => cases hsearch
    have hplain : relay.queryReqWithGroupAuth subscriptionId filters searchPresent auth =
        .ok ⟨[.relay message], false, .default⟩ := by
      unfold RelayServices.queryReqWithGroupAuth
      rw [hvalid, hsearch]
      rfl
    have hprojected : (relay.queryProjectedReq subscriptionId filters searchPresent auth projection
        candidateLimit).Yields ⟨[.relay message], false, .default⟩ := by
      unfold RelayDeliveries.queryProjectedReq
      refine (HookM.Yields.liftM hvalid).bind ?_
      rw [hsearch]
      exact .pure _
    have hthrough : (relay.projectRuntimeMessages filters projection auth ∅
        [.relay message]).Yields [.relay message] :=
      HookM.Yields.bind (.pure []) (.pure _)
    exact ⟨_, _, (HookM.Yields.liftM hplain).bind (hthrough.bind (.pure _)), hprojected, rfl,
      iff_of_true rfl (.inl hpresent)⟩
  | none =>
    have habsent : searchPresent = false := by
      cases searchPresent with
      | false => rfl
      | true => cases hsearch
    obtain ⟨found, hfound, hevents, hdenied⟩ :=
      queryFilters_eq hdefault hsearchable hgate ⟨[], false, .default⟩
    obtain ⟨found', hfound', hevents', hdenied'⟩ :=
      @yields_queryProjectedFilters _ relay search auth
      projection subscriptionId filters hemits hsearchable.matchesTotal
      hsearchable.matchesApartFromLimit htext hgate candidateLimit filters
      (fun filter hmem => ⟨hmem, hcandidates filter hmem⟩) ⟨[], false, .default⟩
    have hsame : found'.events = found.events := hevents'.trans hevents.symm
    have hshown : ∀ event ∈ BaseRelay.sortAndDedupeQueryEvents found.events,
        (RelayEventContext.fromPocketEvent relay.reads event).Succeeds ∧
          ∃ filter ∈ filters, relay.reads.eventMatches filter event = .ok true := by
      intro event hevent
      have hmem := mem_of_mem_sortAndDedupe hevent
      rw [hevents, List.nil_append, List.mem_flatMap] at hmem
      obtain ⟨filter, hfilter, hmem⟩ := hmem
      exact ⟨htext event (findable_of_newestVisible hmem), filter, hfilter,
        matches_of_newestVisible hmem⟩
    obtain ⟨message, hlast⟩ := exists_lastMessage subscriptionId auth found.groupReadDenied
    have hplain : relay.queryReqWithGroupAuth subscriptionId filters searchPresent auth =
        .ok ⟨(BaseRelay.sortAndDedupeQueryEvents found.events).map (.event subscriptionId) ++
          [RelayServices.lastMessage subscriptionId auth found.groupReadDenied],
          found.groupReadDenied, found.queryMetrics.withReturnedEvents
            (BaseRelay.sortAndDedupeQueryEvents found.events).length⟩ := by
      unfold RelayServices.queryReqWithGroupAuth RelayServices.queryEventsReport
      rw [hvalid, hsearch, hfound]
      rfl
    have hthrough := @yields_projectRuntimeMessages _ relay auth projection subscriptionId filters
      hemits hsearchable.matchesTotal _ hshown nodup_sortAndDedupe message ∅
      fun _ _ => BTreeSet.not_mem_empty
    rw [← hlast] at hthrough
    have hprojected : (relay.queryProjectedReq subscriptionId filters searchPresent auth projection
        candidateLimit).Yields
          ⟨(BaseRelay.sortAndDedupeQueryEvents found.events).map (.event subscriptionId) ++
            [RelayServices.lastMessage subscriptionId auth found'.groupReadDenied],
            found'.groupReadDenied, found'.queryMetrics.withReturnedEvents
              (BaseRelay.sortAndDedupeQueryEvents found.events).length⟩ := by
      unfold RelayDeliveries.queryProjectedReq
      refine (HookM.Yields.liftM hvalid).bind ?_
      rw [hsearch]
      refine hfound'.bind ?_
      rw [hsame]
      exact .pure _
    refine ⟨_, _, (HookM.Yields.liftM hplain).bind (hthrough.bind (.pure _)), hprojected, ?_, ?_⟩
    · rw [delivered_reply]
      dsimp only
      rw [delivered_reply]
    · have hnear : found.groupReadDenied = true ↔ ∃ filter ∈ filters,
          relay.HiddenWithin search auth (relay.searchedLimit filter) filter := by
        rw [hdenied, Bool.false_or, List.any_eq_true]
        exact exists_congr fun filter => and_congr_right fun _ =>
          screensHidden_iff hstops hsearchable.matchesApartFromLimit
      have hfar : found'.groupReadDenied = true ↔ ∃ filter ∈ filters,
          relay.HiddenWithin search auth candidateLimit filter := by
        rw [hdenied', Bool.false_or, List.any_eq_true]
        exact exists_congr fun filter => and_congr_right fun _ =>
          screensHidden_iff hstops hsearchable.matchesApartFromLimit
      have hfurther : found.groupReadDenied = true → found'.groupReadDenied = true := by
        rw [hnear, hfar]
        intro ⟨filter, hmem, hhidden⟩
        exact ⟨filter, hmem, HiddenWithin.further hhidden
          (searchedLimit_le hdefault (hcandidates filter hmem).2)⟩
      rw [habsent, or_iff_right Bool.false_ne_true, ← hnear, ← hfar]
      dsimp only
      rw [List.append_cancel_left_eq, List.cons_eq_cons, and_iff_left rfl, lastMessage_inj]
      exact ⟨fun heq h => heq ▸ h, fun h => Bool.eq_iff_iff.2 ⟨h, hfurther⟩⟩

end

/-! ## The plain search -/

/-- No two events are each newer than the other. -/
theorem StrictlyNewer.asymm {left right : PocketEvent} (h : StrictlyNewer left right) :
    ¬ StrictlyNewer right left := by
  intro h'
  rcases h with hlt | ⟨heq, hid⟩
  · rcases h' with hlt' | ⟨heq', -⟩
    · exact lt_asymm hlt hlt'
    · exact absurd hlt (heq' ▸ lt_irrefl _)
  · rcases h' with hlt' | ⟨-, hid'⟩
    · exact absurd hlt' (heq ▸ lt_irrefl _)
    · exact lt_asymm hid hid'

namespace Sample

/-- Of candidates in their order those are screened before which fewer matches stand than are
wanted. -/
theorem mem_plainScreened {decides : PocketEvent → PocketScreenResult} {wanted : Nat}
    {candidates : List PocketEvent} (hsorted : candidates.Pairwise StrictlyNewer)
    {event : PocketEvent} (hmem : event ∈ candidates) :
    event ∈ plainScreened decides wanted candidates ↔
      candidates.countP (fun newer => decides newer = .isMatch ∧ StrictlyNewer newer event) <
        wanted := by
  induction candidates generalizing wanted with
  | nil => cases hmem
  | cons candidate rest ih =>
    obtain ⟨hnewer, hrest⟩ := List.pairwise_cons.1 hsorted
    cases wanted with
    | zero => exact iff_of_false List.not_mem_nil (Nat.not_lt_zero _)
    | succ wanted =>
      rw [plainScreened, List.mem_cons, List.countP_cons]
      rcases List.mem_cons.1 hmem with rfl | hlater
      · have hself : ¬ StrictlyNewer event event := fun h => h.asymm h
        have hnone : rest.countP (fun newer =>
            decides newer = .isMatch ∧ StrictlyNewer newer event) = 0 := by
          refine List.countP_eq_zero.2 fun other hother hcounted => ?_
          exact (hnewer other hother).asymm (of_decide_eq_true hcounted).2
        refine iff_of_true (.inl rfl) ?_
        rw [hnone, if_neg fun hcounted => hself (of_decide_eq_true hcounted).2]
        omega
      · have hafter := hnewer event hlater
        have hne : event ≠ candidate := by
          intro heq
          rw [heq] at hafter
          exact hafter.asymm hafter
        rw [or_iff_right hne, ih hrest hlater]
        simp only [hafter, and_true]
        cases decides candidate with
        | isMatch => simp
        | mismatch => simp
        | redacted => simp

/-- The plain search stops at its limit. -/
theorem plainSearch_stopsAtLimit : plainSearch.StopsAtLimit := by
  intro events filter query decides event hevent hmatches
  have hcandidate : event ∈ plainCandidates events filter :=
    (List.mem_insertionSort _).2 (List.mem_filter.2 ⟨hevent, Except.ok.inj hmatches⟩)
  have hids : ((plainFindable events).map PocketEvent.id).Nodup := nodup_keys_firstsBy
  have hsorted : (plainCandidates events filter).Pairwise StrictlyNewer := by
    have hnodup : ((plainCandidates events filter).map PocketEvent.id).Nodup :=
      ((List.perm_insertionSort NewerFirst _).map _).nodup_iff.2
        (hids.sublist (List.filter_sublist.map _))
    exact ((List.pairwise_insertionSort NewerFirst _).and (List.pairwise_map.1 hnodup)).imp
      fun ⟨hnewer, hid⟩ => strictlyNewer_of_newerFirst hnewer hid
  have hcount : (plainCandidates events filter).countP
      (fun newer => decides newer = .isMatch ∧ StrictlyNewer newer event) =
      ((plainSearch.findable events).filter fun newer =>
        plainReads.eventMatches filter newer = .ok true ∧ decides newer = .isMatch).countP
          (fun newer => StrictlyNewer newer event) := by
    unfold plainCandidates
    rw [(List.perm_insertionSort NewerFirst _).countP_eq, List.countP_filter, List.countP_filter]
    refine List.countP_congr fun newer _ => ?_
    have hsame : plainReads.eventMatches filter newer = .ok true ↔
        plainMatches filter newer = true :=
      ⟨Except.ok.inj, congrArg Except.ok⟩
    simp only [Bool.and_eq_true, decide_eq_true_eq, hsame]
    tauto
  refine (mem_plainScreened hsorted hcandidate).trans ?_
  rw [hcount]
  unfold plainWanted
  split
  · next hnone =>
    refine iff_of_true ?_ (.inl hnone)
    rw [← hcount]
    refine List.countP_lt_length_iff.2 ⟨event, hcandidate, ?_⟩
    have hself : ¬ StrictlyNewer event event := fun h => h.asymm h
    simp [hself]
  · next hsome => exact (or_iff_right hsome).symm

/-- Hooks that emit every event, and have a request searched for ten. -/
def emitting : RelayRuntimeHooks Unit where
  planQuery _ := return .afterProjection ⟨10, by decide⟩
  liveProjectionCandidates _ := return []
  projectEvent _ := return .emit

/-- A relay whose hooks emit every event, over these events. -/
def emittingOn (groups : Option GroupServiceState) (events : List PocketEvent) :
    RelayDeliveries Unit where
  toRelayServices := servicesWith groups events
  hooks := emitting

/-- The messages of the reply to an anonymous session, from a search for one event and from a search
for ten. -/
def nearAndFar (groups : Option GroupServiceState) (events : List PocketEvent)
    (filter : PocketFilter) : Except BaseRelayError (List RuntimeRelayMessage) ×
      Except BaseRelayError (List RuntimeRelayMessage) :=
  ((fun run => run.1.messages) <$> ((emittingOn groups events).queryThenProject feed [filter] false
      .unauthenticated ⟨none⟩).run (),
    (fun run => run.1.messages) <$>
      ((emittingOn groups events).queryProjectedReq feed [filter] false
      .unauthenticated ⟨none⟩ 10).run ())

/-- The theorem at three notes and a filter that asks for two. -/
theorem queryProjectedReq_emitsAll_notes : ∃ report report',
    ((emittingOn none [note 20, note 30, note 40]).queryThenProject feed
      [{ anything with limit := 2 }] false .unauthenticated ⟨none⟩).Yields report ∧
    ((emittingOn none [note 20, note 30, note 40]).queryProjectedReq feed
      [{ anything with limit := 2 }] false .unauthenticated ⟨none⟩ 10).Yields report' ∧
    report'.messages = report.messages := by
  have hdefault : (100 : Nat) < 2 ^ 32 := by decide
  have htext : ∀ event ∈ plainFindable (([note 20, note 30, note 40]).map fun event => ⟨event, 0⟩),
      (RelayEventContext.fromPocketEvent plainReads event).Succeeds := by
    decide +kernel
  obtain ⟨report, report', hnear, hfar, -, hsame⟩ := @queryProjectedReq_emitsAll _
    (emittingOn none [note 20, note 30, note 40]) plainSearch .unauthenticated ⟨none⟩ feed
    [{ anything with limit := 2 }] (fun _ _ => rfl) plainSearch_stopsAtLimit hdefault rfl
    (searchable_servicesWith _ _ _) htext (fun _ _ => ⟨true, rfl⟩) 10
    (fun filter hmem => ⟨⟨rfl, rfl⟩, by rw [List.mem_singleton.1 hmem]; decide⟩) false
  refine ⟨report, report', hnear, hfar, hsame.2 (.inr fun ⟨_, _, event, _, _, hhidden, _⟩ => ?_)⟩
  cases hhidden

/-- A note with a tag that is not text. -/
def rawNote : PocketEvent :=
  { note 20 with tags := [[.raw [255]]] }

/-- A search that goes further meets a hidden event, one that is not text, or one that the gate
cannot tell of, and the replies differ. -/
theorem nearAndFar_differ : ∃ state store, relay.Reachable (.up (some state) store) ∧
    nearAndFar (some state) (store.events.map StoredEvent.event)
      { anything with kinds := [1, 9007], limit := 1 } =
        (.ok [.event feed (note 30), .relay (.eose feed)],
          .ok [.event feed (note 30), .relay (BaseRelay.redactedReqClosed feed .unauthenticated)]) ∧
    (nearAndFar none [rawNote, note 30] { anything with limit := 1 }).1 =
      .ok [.event feed (note 30), .relay (.eose feed)] ∧
    ¬ (nearAndFar none [rawNote, note 30] { anything with limit := 1 }).2.Succeeds ∧
    (nearAndFar (some state) [groupless, note 60] { anything with limit := 1 }).1 =
      .ok [.event feed (note 60), .relay (.eose feed)] ∧
    ¬ (nearAndFar (some state) [groupless, note 60] { anything with limit := 1 }).2.Succeeds := by
  have hscript : relay.ScriptEnds (fun _ _ => true) farmAndNotes fun state store =>
      nearAndFar (some state) (store.events.map StoredEvent.event)
        { anything with kinds := [1, 9007], limit := 1 } =
          (.ok [.event feed (note 30), .relay (.eose feed)],
            .ok [.event feed (note 30),
              .relay (BaseRelay.redactedReqClosed feed .unauthenticated)]) ∧
      (nearAndFar (some state) [groupless, note 60] { anything with limit := 1 }).1 =
        .ok [.event feed (note 60), .relay (.eose feed)] ∧
      ¬ (nearAndFar (some state) [groupless, note 60] { anything with limit := 1 }).2.Succeeds := by
    decide +kernel
  have hraw : (nearAndFar none [rawNote, note 30] { anything with limit := 1 }).1 =
      .ok [.event feed (note 30), .relay (.eose feed)] ∧
      ¬ (nearAndFar none [rawNote, note 30] { anything with limit := 1 }).2.Succeeds := by
    decide +kernel
  obtain ⟨state, store, hreaches, hhidden, hgroupless⟩ := hscript.reaches
  exact ⟨state, store, hreaches.mono fun _ _ _ => trivial, hhidden, hraw.1, hraw.2, hgroupless⟩

end Sample

end Tangle
