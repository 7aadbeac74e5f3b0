import Tangle.Relay.Deliveries

/-!
# Counts

A count searches without the limits of its filters. Every event that can be found and matches a
filter is screened, and what the screen lets pass is counted once, whichever filters it matches
(`count_exact_iff`).
-/

namespace Tangle

variable {services : RelayServices} {auth : GroupAuthContext} {filter : PocketFilter}
  {event : PocketEvent} {cells cells' : ScreenCells}

/-! ## What the screen decides -/

namespace RelayServices

/-- What the screen of a search says of a candidate, when nothing has failed before. -/
def screenDecision (services : RelayServices) (filter : PocketFilter) (auth : GroupAuthContext)
    (event : PocketEvent) : Except BaseRelayError PocketScreenResult := do
  if ← services.eventMatches filter event then
    if ← BaseRelay.groupReadGateVisibleToAuth services.groups event auth then
      return .isMatch
    else
      return .redacted
  else
    return .mismatch

end RelayServices

/-- What the screen notes about a candidate. -/
def ScreenCells.note (cells : ScreenCells) : Except BaseRelayError PocketScreenResult → ScreenCells
  | .error error => cells.scan.fail error
  | .ok .redacted => cells.scan.redact
  | .ok _ => cells.scan

/-- **Screening one event notes what was decided of it**, when no error came before. -/
theorem run_screenPocketEvent (h : cells.screenError = none) :
    (services.screenPocketEvent filter auth event).run cells =
      (match services.screenDecision filter auth event with
        | .error _ => .mismatch
        | .ok result => result,
      cells.note (services.screenDecision filter auth event)) := by
  have hscan : cells.scan.screenError.isSome = false := Option.isSome_eq_false_iff.mpr
    (Option.isNone_iff_eq_none.mpr h)
  unfold RelayServices.screenPocketEvent RelayServices.screenDecision RelayServices.eventMatches
  simp only [StateT.run_bind, StateT.run_modify, StateT.run_get, pure_bind, hscan]
  cases hmatches : services.reads.eventMatches filter event with
  | error error => rfl
  | ok matched =>
    cases matched with
    | false => rfl
    | true =>
      cases hgate : BaseRelay.groupReadGateVisibleToAuth services.groups event auth with
      | error error =>
        simp only [Except.mapError, Except.ok_bind, if_true]
        rfl
      | ok visible =>
        cases visible with
        | true =>
          simp only [Except.mapError, Except.ok_bind, if_true]
          rfl
        | false =>
          simp only [Except.mapError, Except.ok_bind, if_true]
          rfl

/-- After a failure the screen goes on failing. -/
theorem run_screenPocketEvent_of_failed (h : cells.screenError ≠ none) :
    (services.screenPocketEvent filter auth event).run cells = (.mismatch, cells.scan) := by
  have hscan : cells.scan.screenError.isSome = true := Option.isSome_iff_ne_none.mpr h
  unfold RelayServices.screenPocketEvent
  simp only [StateT.run_bind, StateT.run_modify, StateT.run_get, pure_bind, hscan]
  rfl

/-- Once the screen has met an error it has one in the end. -/
theorem failed_of_screenAll {candidates : List PocketEvent} (h : cells.screenError ≠ none) :
    (((services.screenPocketEvent filter auth).screenAll candidates).run cells).2.screenError ≠
      none := by
  induction candidates generalizing cells with
  | nil => exact h
  | cons candidate rest ih =>
    rw [PocketScreen.run_screenAll_cons, run_screenPocketEvent_of_failed h]
    exact @ih cells.scan h

/-- No error is noted exactly when the event was decided and none was noted before. -/
theorem ScreenCells.screenError_note {result : Except BaseRelayError PocketScreenResult} :
    (cells.note result).screenError = none ↔ (∃ r, result = .ok r) ∧ cells.screenError = none := by
  cases result with
  | error error => exact ⟨fun h => (nomatch h), fun h => (nomatch h.1)⟩
  | ok result =>
    cases result <;> exact ⟨fun h => ⟨⟨_, rfl⟩, h⟩, fun h => h.2⟩

/-- When nothing has failed, the screen has decided on every candidate, and what it has returned is
what it decided. -/
theorem decided_of_screenAll {candidates found : List PocketEvent} {redacted : Bool}
    (hrun : ((services.screenPocketEvent filter auth).screenAll candidates).run cells =
      (⟨found, redacted⟩, cells'))
    (hstart : cells.screenError = none) (hend : cells'.screenError = none) :
    (∀ event ∈ candidates, ∃ result, services.screenDecision filter auth event = .ok result) ∧
      found = (candidates.filter fun event =>
        services.screenDecision filter auth event = .ok .isMatch) ∧
      (redacted = true ↔ ∃ event ∈ candidates,
        services.screenDecision filter auth event = .ok .redacted) := by
  induction candidates generalizing cells found redacted with
  | nil =>
    cases hrun
    exact ⟨fun _ h => (nomatch h), rfl, fun h => (nomatch h), fun ⟨_, h, _⟩ => (nomatch h)⟩
  | cons candidate rest ih =>
    rw [PocketScreen.run_screenAll_cons, run_screenPocketEvent hstart] at hrun
    have hnoted : (cells.note (services.screenDecision filter auth candidate)).screenError =
        none := by
      by_contra hfailed
      have hlast := @failed_of_screenAll services auth filter _ rest hfailed
      have hcells := congrArg (fun result => result.2.screenError) hrun
      exact hlast (hcells.trans hend)
    obtain ⟨⟨result, hresult⟩, _⟩ := ScreenCells.screenError_note.mp hnoted
    rw [hresult] at hrun hnoted
    rcases hothers : ((services.screenPocketEvent filter auth).screenAll rest).run
      (cells.note (.ok result)) with ⟨⟨others, hid⟩, last⟩
    rw [hothers] at hrun
    have hlast : last = cells' := congrArg Prod.snd hrun
    have hfound : PocketScreenedEvents.add ⟨others, hid⟩ candidate result = ⟨found, redacted⟩ :=
      congrArg Prod.fst hrun
    subst hlast
    obtain ⟨hdecided, hfilter, hredacted⟩ := ih hothers hnoted
    have hall : ∀ event ∈ candidate :: rest, ∃ result,
        services.screenDecision filter auth event = .ok result := by
      intro event hevent
      rcases List.mem_cons.mp hevent with rfl | hevent
      · exact ⟨result, hresult⟩
      · exact hdecided event hevent
    refine ⟨hall, ?_, ?_⟩
    · rw [List.filter_cons, hresult]
      cases result <;> cases hfound <;> simp [hfilter]
    · rw [List.exists_mem_cons_iff, hresult, ← hredacted]
      cases result <;> cases hfound <;> simp

/-! ## What a count finds -/

/-- What is visible to none of the keys is visible to none. -/
theorem not_visible_of_visibleToAny {state : GroupServiceState} {pubkeys : List PublicKeyHex}
    (h : state.visibleToAny event pubkeys = .ok false) : ∀ pubkey ∈ pubkeys,
      state.readGate.screenEvent event (some pubkey) state.limits ≠ .ok .visible := by
  induction pubkeys with
  | nil => exact fun pubkey hpubkey => (nomatch hpubkey)
  | cons pubkey rest ih =>
    rw [GroupServiceState.visibleToAny, Except.bind_eq_ok] at h
    obtain ⟨decision, hscreen, h⟩ := h
    split at h
    · cases h
    · next hhidden =>
      intro other hother hvisible
      rcases List.mem_cons.mp hother with rfl | hother
      · rw [hscreen] at hvisible
        exact hhidden (Except.ok.inj hvisible)
      · exact ih h other hother hvisible

/-- The gate shows what is visible. -/
theorem visibleTo_iff {groups : Option GroupServiceState} {visible : Bool}
    (h : BaseRelay.groupReadGateVisibleToAuth groups event auth = .ok visible) :
    VisibleTo groups auth event ↔ visible = true := by
  cases visible with
  | true => exact iff_of_true (visibleTo_of_gate h) rfl
  | false =>
    refine iff_of_false (fun hvisible => ?_) Bool.false_ne_true
    cases groups with
    | none => cases h
    | some state =>
      have hgate : state.eventVisibleToAuth event auth = .ok false := Except.mapError_eq_ok.mp h
      obtain ⟨reader, hscreen, hreader⟩ := hvisible state rfl
      unfold GroupServiceState.eventVisibleToAuth at hgate
      split at hgate
      · next hempty =>
        obtain ⟨decision, hdecision, hgate⟩ := Except.bind_eq_ok.mp hgate
        rcases hreader with ⟨rfl, _⟩ | ⟨pubkey, hpubkey, _⟩
        · rw [hscreen] at hdecision
          cases hdecision
          cases hgate
        · rw [Std.ExtTreeSet.isEmpty_iff.mp hempty] at hpubkey
          exact BTreeSet.not_mem_empty hpubkey
      · next hsome =>
        rcases hreader with ⟨_, hempty⟩ | ⟨pubkey, hpubkey, rfl⟩
        · exact hsome hempty
        · exact not_visible_of_visibleToAny hgate pubkey (BTreeSet.mem_toList.mpr hpubkey) hscreen

/-- The screen decides on an event that does not match, and on one on which the gate does not
fail. -/
theorem screenDecision_eq_ok {result : PocketScreenResult} :
    services.screenDecision filter auth event = .ok result ↔
      services.reads.eventMatches filter event = .ok false ∧ result = .mismatch ∨
      services.reads.eventMatches filter event = .ok true ∧ ∃ visible,
        BaseRelay.groupReadGateVisibleToAuth services.groups event auth = .ok visible ∧
          result = if visible then .isMatch else .redacted := by
  unfold RelayServices.screenDecision RelayServices.eventMatches
  cases services.reads.eventMatches filter event with
  | error error => simp [Except.mapError]
  | ok matched =>
    cases matched with
    | false => simp [Except.mapError, pure, Except.pure, eq_comm]
    | true =>
      cases BaseRelay.groupReadGateVisibleToAuth services.groups event auth with
      | error error => simp [Except.mapError]
      | ok visible => cases visible <;> simp [Except.mapError, pure, Except.pure, eq_comm]

/-- An event is taken exactly when it matches and the gate lets it through. -/
theorem screenDecision_eq_isMatch :
    services.screenDecision filter auth event = .ok .isMatch ↔
      services.reads.eventMatches filter event = .ok true ∧
        BaseRelay.groupReadGateVisibleToAuth services.groups event auth = .ok true := by
  simp [screenDecision_eq_ok]

/-- An event is held back exactly when it matches and the gate does not let it through. -/
theorem screenDecision_eq_redacted :
    services.screenDecision filter auth event = .ok .redacted ↔
      services.reads.eventMatches filter event = .ok true ∧
        BaseRelay.groupReadGateVisibleToAuth services.groups event auth = .ok false := by
  simp [screenDecision_eq_ok]

/-- The event can be found, matches one of the filters that are asked for, and is visible. -/
structure Counts (search : PocketSearch services.reads) (auth : GroupAuthContext)
    (asked : PocketFilter → Prop) (event : PocketEvent) : Prop extends
    Sendable services auth asked event where
  findable : event ∈ search.findable services.events

variable {search : PocketSearch services.reads} {found : BaseRelayEventQueryReport}

/-- A part that stands at the end of its range is left out, and comes back as it was. -/
theorem getD_of_ite {α : Type} [DecidableEq α] {a absent : α} :
    (if a ≠ absent then some a else none).getD absent = a := by
  split_ifs with h
  · rfl
  · exact (not_not.mp h).symm

/-- A search of a count changes nothing of a filter but its limit. -/
theorem noLimit_of_limitMode {pocketFilter : PocketFilter}
    (h : services.pocketFilterWithLimitMode filter .preserveCountLimitless = .ok pocketFilter) :
    pocketFilter = { filter with limit := PocketFilter.noLimit } := by
  rw [PocketReads.filter_of_newFilter (Except.mapError_eq_ok.mp h), getD_of_ite, getD_of_ite,
    getD_of_ite]

/-- An event that matches and was decided is one that the gate decided on. -/
theorem exists_gate_of_decided
    (h : ∃ result, services.screenDecision filter auth event = .ok result)
    (hmatches : services.reads.eventMatches filter event = .ok true) :
    ∃ visible, BaseRelay.groupReadGateVisibleToAuth services.groups event auth = .ok visible := by
  obtain ⟨result, h⟩ := h
  rcases screenDecision_eq_ok.mp h with ⟨hmismatch, _⟩ | ⟨_, visible, hgate, _⟩
  · rw [hmatches] at hmismatch
    cases hmismatch
  · exact ⟨visible, hgate⟩

/-- A search of a count finds what counts for its filter, each event once, and it is denied when the
gate hides an event that matches. -/
theorem counts_of_query (hall : search.ScreensAll)
    (hmatches : services.reads.MatchesApartFromLimit)
    (h : services.queryFilterEventsReport services.query.exactCount filter auth
      .preserveCountLimitless = .ok found) :
    (found.events.map PocketEvent.id).Nodup ∧
      (∀ event, event ∈ found.events ↔ Counts search auth (· = filter) event) ∧
      (found.groupReadDenied = true ↔ ∃ event ∈ search.findable services.events,
        services.reads.eventMatches filter event = .ok true ∧
          ¬VisibleTo services.groups auth event) := by
  unfold RelayServices.queryFilterEventsReport at h
  obtain ⟨pocketFilter, hfilter, h⟩ := Except.bind_eq_ok.mp h
  obtain ⟨screened, hfound, h⟩ := Except.bind_eq_ok.mp h
  have hlimit : pocketFilter.limit = PocketFilter.noLimit := by rw [noLimit_of_limitMode hfilter]
  have hsame : ∀ event, services.reads.eventMatches pocketFilter event =
      services.reads.eventMatches filter event := by
    rw [noLimit_of_limitMode hfilter]
    exact fun event => congrFun (hmatches filter _) event
  split at h
  · cases h
  · next hnone =>
    cases h
    have hrun : (services.reads.findEvents services.events pocketFilter services.query.exactCount
        (services.screenPocketEvent pocketFilter auth)).run .new = (.ok screened, _) :=
      Prod.ext (Except.mapError_eq_ok.mp hfound) rfl
    obtain ⟨candidates, shown, hnodup, hfindable, hmatching, hscreen, hperm⟩ :=
      hall _ _ _ _ _ _ _ hlimit rfl hrun
    obtain ⟨hdecided, rfl, hredacted⟩ := decided_of_screenAll hscreen rfl hnone
    have hgated : ∀ event ∈ search.findable services.events,
        services.reads.eventMatches filter event = .ok true → event ∈ candidates ∧
          ∃ visible, BaseRelay.groupReadGateVisibleToAuth services.groups event auth =
            .ok visible := by
      intro event hevent hdoes
      have hcandidate := hmatching event hevent ((hsame event).trans hdoes)
      exact ⟨hcandidate, exists_gate_of_decided (hdecided event hcandidate)
        ((hsame event).trans hdoes)⟩
    refine ⟨?_, fun event => ?_, hredacted.trans ⟨fun ⟨event, hevent, hhidden⟩ => ?_,
      fun ⟨event, hevent, hdoes, hhidden⟩ => ?_⟩⟩
    · exact (hperm.map _).nodup_iff.mpr (hnodup.sublist (List.filter_sublist.map _))
    · rw [hperm.mem_iff, List.mem_filter, decide_eq_true_iff, screenDecision_eq_isMatch, hsame]
      refine ⟨fun ⟨hevent, hdoes, hgate⟩ => ⟨⟨visibleTo_of_gate hgate, filter, rfl, hdoes⟩,
        hfindable event hevent⟩, fun hcounts => ?_⟩
      obtain ⟨_, rfl, hdoes⟩ := hcounts.matching
      obtain ⟨hcandidate, visible, hgate⟩ := hgated event hcounts.findable hdoes
      exact ⟨hcandidate, hdoes, (visibleTo_iff hgate).mp hcounts.visible ▸ hgate⟩
    · obtain ⟨hdoes, hgate⟩ := screenDecision_eq_redacted.mp hhidden
      exact ⟨event, hfindable event hevent, (hsame event).symm.trans hdoes, fun hvisible =>
        Bool.false_ne_true ((visibleTo_iff hgate).mp hvisible)⟩
    · obtain ⟨hcandidate, visible, hgate⟩ := hgated event hevent hdoes
      refine ⟨event, hcandidate, screenDecision_eq_redacted.mpr
        ⟨(hsame event).trans hdoes, hgate.trans (congrArg _ ?_)⟩⟩
      exact Bool.eq_false_iff.mpr fun hvisible => hhidden ((visibleTo_iff hgate).mpr hvisible)

/-! ## What a count gathers -/

section
variable {cells cells' : CountCells services.reads} {hll hll' : BaseRelayCountHll services.reads}
  {events : List PocketEvent} {filters : List PocketFilter}

/-- Counting events takes their ids in, and their authors into the sketch. -/
theorem seen_of_countEvents (h : events.foldlM services.countEvent cells = .ok cells') :
    (∀ id, id ∈ cells'.seen ↔ id ∈ cells.seen ∨ id ∈ events.map PocketEvent.id) ∧
      events.foldlM (fun hll event => hll.observe services.groups event) cells.hll =
        .ok cells'.hll := by
  induction events generalizing cells with
  | nil =>
    cases h
    exact ⟨fun id => by simp, rfl⟩
  | cons event rest ih =>
    rw [List.foldlM_cons, Except.bind_eq_ok] at h
    obtain ⟨next, hnext, h⟩ := h
    obtain ⟨hll, hobserve, hnext⟩ := Except.bind_eq_ok.mp hnext
    cases hnext
    obtain ⟨hseen, hrest⟩ := ih h
    refine ⟨fun id => ?_, ?_⟩
    · rw [hseen id, BTreeSet.mem_insert, List.map_cons, List.mem_cons, eq_comm (a := id)]
      tauto
    · rw [List.foldlM_cons, hobserve]
      exact hrest

/-- Without an offset there is no sketch. -/
theorem observe_of_no_offset (hoffset : hll.offset = none)
    (h : events.foldlM (fun hll event => hll.observe services.groups event) hll = .ok hll') :
    hll' = hll := by
  induction events with
  | nil =>
    cases h
    rfl
  | cons event rest ih =>
    rw [List.foldlM_cons, BaseRelayCountHll.observe, hoffset] at h
    exact ih h

/-- An event counted under some filters is counted under more. -/
theorem Counts.mono {asked asked' : PocketFilter → Prop} (h : Counts search auth asked event)
    (hasked : ∀ filter, asked filter → asked' filter) : Counts search auth asked' event := by
  obtain ⟨filter, hfilter, hmatches⟩ := h.matching
  exact ⟨⟨h.visible, filter, hasked filter hfilter, hmatches⟩, h.findable⟩

/-- An event is counted under a list exactly when it is under its first or under the rest. -/
theorem counts_cons : Counts search auth (· ∈ filter :: filters) event ↔
    Counts search auth (· = filter) event ∨ Counts search auth (· ∈ filters) event := by
  refine ⟨fun h => ?_, fun h => ?_⟩
  · obtain ⟨other, hother, hmatches⟩ := h.matching
    rcases List.mem_cons.mp hother with rfl | hother
    · exact .inl ⟨⟨h.visible, other, rfl, hmatches⟩, h.findable⟩
    · exact .inr ⟨⟨h.visible, other, hother, hmatches⟩, h.findable⟩
  · rcases h with h | h
    · exact h.mono fun _ heq => heq ▸ List.mem_cons_self ..
    · exact h.mono fun _ hmem => List.mem_cons_of_mem _ hmem

/-- The events that are counted make a list without repetition. -/
theorem exists_counted : ∃ counted : List PocketEvent, (counted.map PocketEvent.id).Nodup ∧
    ∀ event, event ∈ counted ↔ Counts search auth (· ∈ filters) event := by
  classical
  refine ⟨(search.findable services.events).filter fun event =>
    Counts search auth (· ∈ filters) event, ?_, fun event => ?_⟩
  · exact (search.nodup_findable _).sublist (List.filter_sublist.map _)
  · rw [List.mem_filter, decide_eq_true_iff]
    exact ⟨And.right, fun h => ⟨h.findable, h⟩⟩

/-- One filter adds the ids of what counts for it. -/
theorem seen_of_countNextFilter (hall : search.ScreensAll)
    (hmatches : services.reads.MatchesApartFromLimit)
    (h : services.countNextFilter auth cells filter = .ok cells') (id : EventId) :
    id ∈ cells'.seen ↔
      id ∈ cells.seen ∨ ∃ event, event.id = id ∧ Counts search auth (· = filter) event := by
  obtain ⟨found, hfound, h⟩ := Except.bind_eq_ok.mp h
  obtain ⟨_, hcounts, _⟩ := counts_of_query hall hmatches hfound
  rw [(seen_of_countEvents h).1 id, List.mem_map]
  refine or_congr Iff.rfl ⟨fun ⟨event, hevent, heq⟩ => ⟨event, heq, (hcounts event).mp hevent⟩,
    fun ⟨event, heq, hevent⟩ => ⟨event, (hcounts event).mpr hevent, heq⟩⟩

/-- All the filters add the ids of what counts for one of them. -/
theorem seen_of_countFilters (hall : search.ScreensAll)
    (hmatches : services.reads.MatchesApartFromLimit)
    (h : filters.foldlM (services.countNextFilter auth) cells = .ok cells') (id : EventId) :
    id ∈ cells'.seen ↔
      id ∈ cells.seen ∨ ∃ event, event.id = id ∧ Counts search auth (· ∈ filters) event := by
  induction filters generalizing cells with
  | nil =>
    cases h
    exact ⟨.inl, fun h => h.elim (fun h => h) fun ⟨_, _, hcounts⟩ =>
      (nomatch hcounts.matching.choose_spec.1)⟩
  | cons filter rest ih =>
    rw [List.foldlM_cons, Except.bind_eq_ok] at h
    obtain ⟨next, hnext, h⟩ := h
    rw [ih h, seen_of_countNextFilter hall hmatches hnext id, or_assoc]
    refine or_congr Iff.rfl ?_
    rw [← exists_or]
    exact exists_congr fun event => by rw [counts_cons, ← and_or_left]

/-! ## The sketch of a count -/

/-- A count without an offset leaves the sketch alone. -/
theorem hll_of_countFilters_of_no_offset (hoffset : cells.hll.offset = none)
    (h : filters.foldlM (services.countNextFilter auth) cells = .ok cells') :
    cells'.hll = cells.hll := by
  induction filters generalizing cells with
  | nil =>
    cases h
    rfl
  | cons filter rest ih =>
    rw [List.foldlM_cons, Except.bind_eq_ok] at h
    obtain ⟨next, hnext, h⟩ := h
    obtain ⟨found, _, hnext⟩ := Except.bind_eq_ok.mp hnext
    have hsuppress : (if found.groupReadDenied then cells.hll.suppress
        else cells.hll) = cells.hll := by
      rw [BaseRelayCountHll.suppress, hoffset]
      exact ite_self _
    have hobserved := (seen_of_countEvents hnext).2
    dsimp only at hobserved
    rw [hsuppress] at hobserved
    have hsame := observe_of_no_offset hoffset hobserved
    exact (ih (hsame ▸ hoffset) h).trans hsame

/-- The event is of no group, or of an open one. Where there is no group service there is no
group. -/
def OfOpenGroup (groups : Option GroupServiceState) (event : PocketEvent) : Prop :=
  ∃ eventClass, classifyGroupEvent event (groupLimits groups) = .ok eventClass ∧
    ∀ groupId, eventClass.groupId = some groupId →
      ∃ state group, groups = some state ∧ state.projection.group groupId = some group ∧
        state.projection.tombstone groupId = none ∧ group.metadata.isPrivate = false ∧
        group.metadata.hidden = false

/-- **A group is open exactly when** it is there, is not deleted, and is neither private nor
hidden. -/
theorem isOpenGroup_eq_true {projection : GroupProjection} {groupId : GroupId} :
    BaseRelay.isOpenGroup projection groupId = true ↔
      ∃ group, projection.group groupId = some group ∧ projection.tombstone groupId = none ∧
        group.metadata.isPrivate = false ∧ group.metadata.hidden = false := by
  simp [BaseRelay.isOpenGroup, Option.any_eq_true, and_assoc]

/-- With a group service, an event that does not rule a sketch out is of no group, or of an open
one. -/
theorem ofOpenGroup_of_not_suppressed {state : GroupServiceState}
    (h : BaseRelay.eventSuppressesCountHll (some state) event = .ok false) :
    OfOpenGroup (some state) event := by
  obtain ⟨eventClass, hclass, h⟩ := Except.bind_eq_ok.mp h
  refine ⟨eventClass, Except.mapError_eq_ok.mp hclass, fun groupId hgroup => ?_⟩
  rw [hgroup] at h
  have hopen : BaseRelay.isOpenGroup state.projection groupId = true := by
    simpa using Except.ok.inj h
  obtain ⟨group, hopens⟩ := isOpenGroup_eq_true.mp hopen
  exact ⟨state, group, rfl, hopens⟩

/-- The event is of no group: the relay reads its tags, and they name none. -/
def OfNoGroup (event : PocketEvent) : Prop :=
  ∃ eventClass, classifyGroupEvent event .default = .ok eventClass ∧ eventClass.groupId = none

/-- Where there is no group service, only what is of no group is of no group that is not open. -/
theorem ofOpenGroup_none_iff : OfOpenGroup none event ↔ OfNoGroup event := by
  refine exists_congr fun eventClass => and_congr_right fun _ => ?_
  constructor
  · intro h
    cases hgroup : eventClass.groupId with
    | none => rfl
    | some groupId =>
      obtain ⟨_, _, hstate, _⟩ := h groupId hgroup
      cases hstate
  · intro hnone groupId hgroup
    rw [hnone] at hgroup
    cases hgroup

/-- The registers of the authors of events, one after another. -/
def sketchOf (reads : PocketReads) (offset : Nat) (events : List PocketEvent) :
    Except String reads.Hll8 :=
  events.foldlM (fun registers event => reads.addElement registers event.pubkey offset)
    reads.newHll8

/-- A sketch that is not ruled out has taken in every event that was counted, and none of them rules
a sketch out. -/
theorem registers_of_observe {offset : Nat} {registers : services.reads.Hll8} {suppressed : Bool}
    (h : events.foldlM (fun hll event => hll.observe services.groups event)
      (⟨some offset, some registers, suppressed⟩ : BaseRelayCountHll services.reads) = .ok hll')
    (hallowed : hll'.suppressed = false) :
    suppressed = false ∧
      (∀ event ∈ events, BaseRelay.eventSuppressesCountHll services.groups event = .ok false) ∧
      ∃ registers', hll'.hll = some registers' ∧
        events.foldlM
          (fun registers event => services.reads.addElement registers event.pubkey offset)
          registers = .ok registers' := by
  induction events generalizing registers suppressed with
  | nil =>
    cases h
    exact ⟨hallowed, fun _ hevent => (nomatch hevent), registers, rfl, rfl⟩
  | cons event rest ih =>
    rw [List.foldlM_cons, Except.bind_eq_ok] at h
    obtain ⟨next, hnext, h⟩ := h
    obtain ⟨suppresses, hsuppresses, hnext⟩ := Except.bind_eq_ok.mp hnext
    cases suppresses with
    | true =>
      cases hnext
      exact absurd (ih h).1 Bool.true_eq_false.mp
    | false =>
      obtain ⟨added, hadded, hnext⟩ := Except.bind_eq_ok.mp hnext
      cases hnext
      obtain ⟨hsuppressed, hrest, registers', hregisters, hfold⟩ := ih h
      refine ⟨hsuppressed, fun other hother => ?_, registers', hregisters, ?_⟩
      · rcases List.mem_cons.mp hother with rfl | hother
        · exact hsuppresses
        · exact hrest other hother
      · rw [List.foldlM_cons, Except.mapError_eq_ok.mp hadded]
        exact hfold

/-- Without a group service no event rules a sketch out. -/
theorem not_suppressed_of_observe {offset : Nat} {registers : services.reads.Hll8}
    (hgroups : services.groups = none)
    (h : events.foldlM (fun hll event => hll.observe services.groups event)
      (⟨some offset, some registers, false⟩ : BaseRelayCountHll services.reads) = .ok hll') :
    ∃ registers', hll' = ⟨some offset, some registers', false⟩ := by
  induction events generalizing registers with
  | nil =>
    cases h
    exact ⟨registers, rfl⟩
  | cons event rest ih =>
    rw [List.foldlM_cons, Except.bind_eq_ok] at h
    obtain ⟨next, hnext, h⟩ := h
    obtain ⟨suppresses, hsuppresses, hnext⟩ := Except.bind_eq_ok.mp hnext
    rw [hgroups] at hsuppresses
    cases hsuppresses
    obtain ⟨added, _, hnext⟩ := Except.bind_eq_ok.mp hnext
    cases hnext
    exact ih h

/-- What a count with a sketch says: it has one filter, the gate has hidden no event that matches
it, every event that was counted is of no group or of an open one, and the registers are those of
the authors of these events. -/
structure SketchIsSafe (services : RelayServices) (search : PocketSearch services.reads)
    (auth : GroupAuthContext) (filters : List PocketFilter) (counted : List PocketEvent)
    (sketch : String) : Prop where
  made : ∃ filter offset registers, filters = [filter] ∧
    services.reads.hyperloglogOffset filter = .ok (some offset) ∧
    sketchOf services.reads offset counted = .ok registers ∧
    sketch = services.reads.toHexString registers
  shown : ∀ filter ∈ filters, ∀ event ∈ search.findable services.events,
    services.reads.eventMatches filter event = .ok true → VisibleTo services.groups auth event
  ofOpenGroups : ∀ event ∈ counted, OfOpenGroup services.groups event

/-- The count is that of the events that can be found, match a filter and are visible, and its
sketch is safe. -/
def CountIsExact (services : RelayServices) (search : PocketSearch services.reads)
    (auth : GroupAuthContext) (filters : List PocketFilter) (count : Nat) (hll : Option String) :
    Prop :=
  ∃ counted : List PocketEvent, (counted.map PocketEvent.id).Nodup ∧
    (∀ event, event ∈ counted ↔ Counts search auth (· ∈ filters) event) ∧
    count = counted.length ∧
    ∀ sketch, hll = some sketch → SketchIsSafe services search auth filters counted sketch

/-- There is no group service, and the count has one filter, for which Pocket has an offset and
which asks for no group. -/
structure SketchesUngrouped (services : RelayServices) (filters : List PocketFilter) : Prop where
  ungrouped : services.groups = none
  offset : ∃ filter offset, filters = [filter] ∧
    services.reads.hyperloglogOffset filter = .ok (some offset) ∧
    BaseRelay.countHllFilterHasGroupTarget filter = false

/-- A sketch without an offset is not given up for the filter's targets. -/
theorem suppressForFilterTargets_of_no_offset (hoffset : hll.offset = none) :
    hll.suppressForFilterTargets services.groups filters = hll := by
  unfold BaseRelayCountHll.suppressForFilterTargets
  split
  · rw [hoffset]
    rfl
  · rfl

/-- A filter rules a sketch out by the groups that it asks for, and this changes nothing else. -/
theorem suppressForFilterTargets_eq {offset : Nat} {registers : services.reads.Hll8} :
    BaseRelayCountHll.suppressForFilterTargets ⟨some offset, some registers, false⟩ services.groups
      [filter] = ⟨some offset, some registers,
        decide (BaseRelay.countHllFilterTargetPolicy services.groups filter = .suppress)⟩ := by
  unfold BaseRelayCountHll.suppressForFilterTargets
  by_cases hpolicy : BaseRelay.countHllFilterTargetPolicy services.groups filter = .suppress
  · rw [decide_eq_true hpolicy]
    exact if_pos ⟨rfl, hpolicy⟩
  · rw [decide_eq_false hpolicy]
    exact if_neg fun h => hpolicy h.2

/-- Without a group service a sketch is ruled out for a filter that asks for a group. -/
theorem policy_eq_suppress_iff (hgroups : services.groups = none) :
    BaseRelay.countHllFilterTargetPolicy services.groups filter = .suppress ↔
      BaseRelay.countHllFilterHasGroupTarget filter = true := by
  rw [hgroups, BaseRelay.countHllFilterTargetPolicy]
  split
  · next h => exact iff_of_true rfl h
  · next h => exact iff_of_false (by simp) h

/-- The sketch of a count with one filter, for which there is an offset: it takes in what the search
finds, unless the filter or the gate has ruled it out. -/
theorem exists_found_of_countEvents {offset : Nat}
    (hoffset : services.reads.hyperloglogOffset filter = .ok (some offset))
    (h : services.countEvents [filter] auth = .ok cells) :
    ∃ found, services.queryFilterEventsReport services.query.exactCount filter auth
        .preserveCountLimitless = .ok found ∧
      found.events.foldlM (fun hll event => hll.observe services.groups event)
        (⟨some offset, some services.reads.newHll8, found.groupReadDenied ||
          decide (BaseRelay.countHllFilterTargetPolicy services.groups filter = .suppress)⟩ :
          BaseRelayCountHll services.reads) = .ok cells.hll := by
  obtain ⟨hll, hnew, h⟩ := Except.bind_eq_ok.mp h
  obtain ⟨offset', hoffset', hnew⟩ := Except.bind_eq_ok.mp hnew
  cases hnew
  cases (Except.mapError_eq_ok.mp hoffset').symm.trans hoffset
  rw [Option.map_some, suppressForFilterTargets_eq, List.foldlM_cons, Except.bind_eq_ok] at h
  obtain ⟨next, hnext, h⟩ := h
  cases h
  obtain ⟨found, hfound, hnext⟩ := Except.bind_eq_ok.mp hnext
  refine ⟨found, hfound, ?_⟩
  have hobserved := (seen_of_countEvents hnext).2
  dsimp only at hobserved
  rw [← hobserved]
  cases found.groupReadDenied <;> rfl

/-- What a sketch that is not ruled out was made from: if every event that counts is of no group
where there is no group service, it is safe. -/
theorem sketch_of_countEvents (hall : search.ScreensAll)
    (hmatches : services.reads.MatchesApartFromLimit)
    (h : services.countEvents filters auth = .ok cells) {sketch : String}
    (hsketch : cells.hll.intoHex = some sketch)
    (hungrouped : SketchesUngrouped services filters →
      ∀ event, Counts search auth (· ∈ filters) event → OfNoGroup event) :
    ∃ counted : List PocketEvent, (counted.map PocketEvent.id).Nodup ∧
      (∀ event, event ∈ counted ↔ Counts search auth (· ∈ filters) event) ∧
      SketchIsSafe services search auth filters counted sketch := by
  have hcells := h
  obtain ⟨hll, hnew, h⟩ := Except.bind_eq_ok.mp h
  obtain ⟨offset, hoffset, hnew⟩ := Except.bind_eq_ok.mp hnew
  cases hnew
  unfold BaseRelayCountHll.intoHex at hsketch
  split at hsketch
  · cases hsketch
  · next hallowed =>
    obtain ⟨registers, hregisters, hhex⟩ := Option.map_eq_some_iff.mp hsketch
    cases offset with
    | none =>
      rw [suppressForFilterTargets_of_no_offset rfl] at h
      rw [hll_of_countFilters_of_no_offset rfl h] at hregisters
      cases hregisters
    | some offset =>
      unfold BaseRelayCountHll.countHllOffset at hoffset
      split at hoffset
      · next filter hcounted =>
        have hoffset := Except.mapError_eq_ok.mp hoffset
        obtain ⟨found, hfound, hobserved⟩ := exists_found_of_countEvents hoffset hcells
        obtain ⟨hnodup, hcounts, hshown⟩ := counts_of_query hall hmatches hfound
        obtain ⟨hallows, hopen, registers', hregisters', hfold⟩ :=
          registers_of_observe hobserved (Bool.eq_false_iff.mpr hallowed)
        obtain ⟨hdenied, hpolicy⟩ := Bool.or_eq_false_iff.mp hallows
        have hsingle : ∀ event, Counts search auth (· = filter) event ↔
            Counts search auth (· ∈ [filter]) event := fun event => by
          simp only [List.mem_singleton]
        refine ⟨found.events, hnodup, fun event => (hcounts event).trans (hsingle event),
          ?_, ?_, ?_⟩
        · cases hregisters'.symm.trans hregisters
          exact ⟨filter, offset, registers, rfl, hoffset, hfold, hhex.symm⟩
        · intro other hother
          cases List.mem_singleton.mp hother
          intro event hevent hdoes
          by_contra hhidden
          have hrefused := hshown.mpr ⟨event, hevent, hdoes, hhidden⟩
          rw [hdenied] at hrefused
          cases hrefused
        · intro event hevent
          cases hgroups : services.groups with
          | some state => exact ofOpenGroup_of_not_suppressed (hgroups ▸ hopen event hevent)
          | none =>
            refine ofOpenGroup_none_iff.mpr (hungrouped ⟨hgroups, filter, offset, rfl, hoffset, ?_⟩
              event ((hsingle event).mp ((hcounts event).mp hevent)))
            rw [← Bool.not_eq_true, ← policy_eq_suppress_iff hgroups]
            exact of_decide_eq_false hpolicy
      · cases hoffset

/-- Where there is no group service, a count with one filter that asks for no group has a sketch, if
Pocket has an offset for the filter. -/
theorem sketch_of_sketchesUngrouped (hall : search.ScreensAll)
    (hmatches : services.reads.MatchesApartFromLimit)
    (hungrouped : SketchesUngrouped services filters)
    (h : services.countEvents filters auth = .ok cells) :
    ∃ sketch, cells.hll.intoHex = some sketch := by
  obtain ⟨hgroups, filter, offset, rfl, hoffset, htarget⟩ := hungrouped
  obtain ⟨found, hfound, hobserved⟩ := exists_found_of_countEvents hoffset h
  obtain ⟨_, _, hshown⟩ := counts_of_query hall hmatches hfound
  have hdenied : found.groupReadDenied = false := by
    refine Bool.eq_false_iff.mpr fun hdenied => ?_
    obtain ⟨event, _, _, hhidden⟩ := hshown.mp hdenied
    refine hhidden fun state hstate => ?_
    rw [hgroups] at hstate
    cases hstate
  have hpolicy : BaseRelay.countHllFilterTargetPolicy services.groups filter ≠ .suppress := by
    rw [Ne, policy_eq_suppress_iff hgroups, htarget]
    exact Bool.false_ne_true
  rw [hdenied, decide_eq_false hpolicy] at hobserved
  obtain ⟨registers, hregisters⟩ := not_suppressed_of_observe hgroups hobserved
  rw [hregisters]
  exact ⟨_, rfl⟩

/-- **When a count is exact and its sketch safe.** The count of a reply is in every case the number
of the events that can be found, match a filter and are visible, whatever the limits of the filters.
With a group service a reply has a sketch only of the authors of exactly these events, for one
filter whose matches are all visible and of no group or of open groups. Without one the sketch is
safe exactly when each event that counts is of no group, or the count has several filters, or one
for which there is no sketch. -/
theorem count_exact_iff (search : PocketSearch services.reads) (hall : search.ScreensAll)
    (hmatches : services.reads.MatchesApartFromLimit) {subscriptionId id : SubscriptionId}
    {searchPresent : Bool} {report : BaseRelayCountReport} {count : Nat} {hll : Option String}
    (h : services.handleCountWithGroupAuth subscriptionId filters searchPresent auth = .ok report)
    (hcount : report.message = .count id count hll) :
    (∃ counted : List PocketEvent, (counted.map PocketEvent.id).Nodup ∧
      (∀ event, event ∈ counted ↔ Counts search auth (· ∈ filters) event) ∧
      count = counted.length) ∧
    (CountIsExact services search auth filters count hll ↔
      (SketchesUngrouped services filters →
        ∀ event, Counts search auth (· ∈ filters) event → OfNoGroup event)) := by
  obtain ⟨_, _, h⟩ := Except.bind_eq_ok.mp h
  unfold BaseRelay.unsupportedSearchPresentClosed at h
  cases searchPresent with
  | true =>
    cases h
    cases hcount
  | false =>
    obtain ⟨cells, hcells, h⟩ := Except.bind_eq_ok.mp h
    cases h
    cases hcount
    have hseen : ∀ counted : List PocketEvent,
        (∀ event, event ∈ counted ↔ Counts search auth (· ∈ filters) event) →
        (counted.map PocketEvent.id).Nodup → cells.seen.size = counted.length := by
      intro counted hcounts hnodup
      obtain ⟨start, _, hfold⟩ := Except.bind_eq_ok.mp hcells
      rw [← @List.length_map _ _ counted PocketEvent.id]
      refine BTreeSet.size_eq_length hnodup fun id => ?_
      rw [seen_of_countFilters hall hmatches hfold id, List.mem_map]
      constructor
      · rintro (hnone | ⟨event, heq, hevent⟩)
        · exact absurd hnone BTreeSet.not_mem_empty
        · exact ⟨event, (hcounts event).mpr hevent, heq⟩
      · rintro ⟨event, hevent, heq⟩
        exact .inr ⟨event, heq, (hcounts event).mp hevent⟩
    obtain ⟨counted, hnodup, hcounts⟩ := @exists_counted services auth search filters
    refine ⟨⟨counted, hnodup, hcounts, hseen counted hcounts hnodup⟩, ?_, fun hungrouped => ?_⟩
    · rintro ⟨counted, -, hcounts, -, hsafe⟩ hungrouped event hevent
      obtain ⟨sketch, hsketch⟩ := sketch_of_sketchesUngrouped hall hmatches hungrouped hcells
      have hopen := (hsafe sketch hsketch).ofOpenGroups event ((hcounts event).mpr hevent)
      rw [hungrouped.ungrouped] at hopen
      exact ofOpenGroup_none_iff.mp hopen
    · cases hhll : cells.hll.intoHex with
      | some sketch =>
        obtain ⟨counted, hnodup, hcounts, hsafe⟩ :=
          sketch_of_countEvents hall hmatches hcells hhll hungrouped
        refine ⟨counted, hnodup, hcounts, hseen counted hcounts hnodup, fun other hother => ?_⟩
        cases hother
        exact hsafe
      | none => exact ⟨counted, hnodup, hcounts, hseen counted hcounts hnodup, by simp⟩

end

/-! ### Notes beside a private group -/

namespace Sample

/-- A note about farms that is of no group. -/
def farmNote (createdAt : UnixTimestamp) : PocketEvent :=
  .ofTexts (eventId 1 createdAt [["t".toList, "farm".toList]]) member 1 createdAt
    [["t".toList, "farm".toList]]

/-- A filter for the notes of the sample group. -/
def farmNotes : PocketFilter :=
  { anything with kinds := [1], tags := [[.text "t".toList, .text "farm".toList]], limit := 1 }

/-- A private group is made, and two notes about farms are stored. -/
def farmAndFarmNotes : List ScriptLine :=
  [.start config 100, .submit (farmEvent owner 9007 10 [["private"]]) (authAs owner),
    .submit (farmNote 20) (authAs member), .submit (farmNote 30) (authAs member)]

/-- A post to the private group, about farms. -/
def farmTopic : PocketEvent :=
  farmEvent owner 1 20 [["t", "farm"]]

/-- A private group is made, and its owner posts to it about farms. -/
def farmAndTopic : List ScriptLine :=
  [.start config 100, .submit (farmEvent owner 9007 10 [["private"]]) (authAs owner),
    .submit farmTopic (authAs owner)]

/-- The reply to an anonymous reader who counts the notes about farms. -/
def farmNotesCounted (groups : Option GroupServiceState) (store : PocketStore) :
    Except BaseRelayError RelayMessage :=
  BaseRelayCountReport.message <$>
    (session groups store).handleCountWithGroupAuth feed [farmNotes] false .unauthenticated

end Sample

section
open Sample

/-- Both notes about farms are counted, though the filter is limited to one, and the count has a
sketch that both authors are in and nobody else. -/
theorem count_exact_iff_farmNotes : ∃ state store report,
    relay.Reachable (.up (some state) store) ∧
      (session (some state) store).handleCountWithGroupAuth feed [farmNotes] false
        .unauthenticated = .ok report ∧
      report.message = .count feed 2 (some "2") ∧
      CountIsExact (session (some state) store).toRelayServices plainSearch .unauthenticated
        [farmNotes] 2 (some "2") := by
  have hscript : relay.ScriptEnds (fun _ _ => true) farmAndFarmNotes fun state store =>
      farmNotesCounted (some state) store = .ok (.count feed 2 (some "2")) := by
    decide +kernel
  obtain ⟨state, store, hreaches, hcounted⟩ := hscript.reaches
  obtain ⟨report, hreport, hmessage⟩ := Except.map_eq_ok.mp hcounted
  have hexact := (count_exact_iff plainSearch plainSearch_screensAll
    plainReads_matchesApartFromLimit hreport hmessage).2
  refine ⟨state, store, report, hreaches.mono fun _ _ _ => trivial, hreport, hmessage,
    hexact.mpr fun hungrouped => ?_⟩
  cases hungrouped.ungrouped

/-- A relay is started without groups on the store of one that had a private group: the count of the
notes about farms has a sketch, in which the author of the group's post is. -/
theorem ungrouped_sketch_not_safe : ∃ store report, relay.Reachable (.up none store) ∧
    (session none store).handleCountWithGroupAuth feed [farmNotes] false .unauthenticated =
      .ok report ∧
    report.message = .count feed 1 (some "1") ∧
    ¬CountIsExact (session none store).toRelayServices plainSearch .unauthenticated [farmNotes] 1
      (some "1") := by
  have hscript : relay.ScriptEnds (fun _ _ => true) farmAndTopic fun _ store =>
      farmNotesCounted none store = .ok (.count feed 1 (some "1")) ∧
        farmTopic ∈ plainSearch.findable store.events := by
    decide +kernel
  have hclass : classifyGroupEvent farmTopic .default = .ok (.normal farm) := by
    decide +kernel
  have hmatches : plainReads.eventMatches farmNotes farmTopic = .ok true := by
    decide +kernel
  obtain ⟨state, store, hreaches, hcounted, hfindable⟩ := hscript.reaches
  obtain ⟨report, hreport, hmessage⟩ := Except.map_eq_ok.mp hcounted
  have hreachable : relay.Reachable (.up (some state) store) := hreaches.mono fun _ _ _ => trivial
  refine ⟨store, report, ?_, hreport, hmessage, ?_⟩
  · have hstart : relay.Step (.down store) (.started ungrouped 200) (.up none store) := .started rfl
    exact (hreachable.step trivial .stopped).step trivial hstart
  · rintro ⟨counted, -, hcounts, -, hsafe⟩
    have hvisible : VisibleTo none .unauthenticated farmTopic := fun state hstate => by cases hstate
    have hcounted := (hcounts farmTopic).mpr
      ⟨⟨hvisible, farmNotes, List.mem_singleton_self _, hmatches⟩, hfindable⟩
    obtain ⟨eventClass, hother, hnone⟩ :=
      ofOpenGroup_none_iff.mp ((hsafe "1" rfl).ofOpenGroups farmTopic hcounted)
    cases hclass.symm.trans hother
    cases hnone

end

end Tangle
