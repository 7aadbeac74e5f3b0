import Tangle.Relay.HiddenReads

/-!
# Counting beside a hidden group

The count of a reply takes in visible events only, so it is the same in two states that differ only
in a hidden group. Its sketch is left out, too, when the gate hides an event that matches. So a
reader who counts with a filter of one tag is told by the missing sketch that there is a hidden
event of that kind (`count_besideHidden`).
-/

namespace Tangle

/-! ## What a count gathers -/

/-- The event rules a sketch out. -/
def suppressesSketch (groups : Option GroupServiceState) (event : PocketEvent) : Bool :=
  match BaseRelay.eventSuppressesCountHll groups event with
  | .ok suppresses => suppresses
  | .error _ => false

/-- A sketch does not depend on the order in which it was made. -/
def PocketReads.SketchUnordered (reads : PocketReads) : Prop :=
  ∀ (offset : Nat) (events events' : List PocketEvent), events.Perm events' →
    Except.Alike (fun registers registers' => reads.toHexString registers =
      reads.toHexString registers') (sketchOf reads offset events) (sketchOf reads offset events')

section
variable {services : RelayServices} {cells : CountCells services.reads}
  {hll : BaseRelayCountHll services.reads} {events events' : List PocketEvent}

/-- Counting events takes in their ids, and the sketch observes them. -/
theorem countEvents_eq : events.foldlM services.countEvent cells =
    (fun hll => { cells with
      hll := hll, seen := events.foldl (fun seen event => seen.insert event.id) cells.seen }) <$>
      events.foldlM (fun hll event => hll.observe services.groups event) cells.hll := by
  induction events generalizing cells with
  | nil => rfl
  | cons event rest ih =>
    rw [List.foldlM_cons, List.foldlM_cons, RelayServices.countEvent]
    cases cells.hll.observe services.groups event with
    | error error => rfl
    | ok next => exact ih

/-- The ids do not depend on the order of the events. -/
theorem seen_eq {seen : BTreeSet EventId} (hperm : events.Perm events') :
    events.foldl (fun seen event => seen.insert event.id) seen =
      events'.foldl (fun seen event => seen.insert event.id) seen := by
  have hmem : ∀ (events : List PocketEvent) (seen : BTreeSet EventId) id,
      id ∈ events.foldl (fun seen event => seen.insert event.id) seen ↔
        id ∈ seen ∨ id ∈ events.map PocketEvent.id := by
    intro events
    induction events with
    | nil => simp
    | cons event rest ih =>
      intro seen id
      rw [List.foldl_cons, ih, BTreeSet.mem_insert, List.map_cons, List.mem_cons,
        eq_comm (a := id)]
      tauto
  refine BTreeSet.ext fun id => ?_
  rw [hmem, hmem, (hperm.map PocketEvent.id).mem_iff]

theorem observe_none (h : hll.offset = none) :
    events.foldlM (fun hll event => hll.observe services.groups event) hll = .ok hll := by
  induction events with
  | nil => rfl
  | cons event rest ih =>
    rw [List.foldlM_cons, BaseRelayCountHll.observe, h]
    exact ih

/-- A sketch takes in the authors of the events that do not rule it out. -/
theorem observe_some {offset : Nat} {registers : services.reads.Hll8} {suppressed : Bool}
    (hclass : ∀ event ∈ events,
      (BaseRelay.eventSuppressesCountHll services.groups event).Succeeds) :
    events.foldlM (fun hll event => hll.observe services.groups event)
        (⟨some offset, some registers, suppressed⟩ : BaseRelayCountHll services.reads) =
      (fun registers => ⟨some offset, some registers,
          suppressed || events.any (suppressesSketch services.groups)⟩) <$>
        ((events.filter fun event => !suppressesSketch services.groups event).foldlM
          (fun registers event => services.reads.addElement registers event.pubkey offset)
          registers).mapError BaseRelayError.error := by
  induction events generalizing registers suppressed with
  | nil =>
    rw [List.any_nil, Bool.or_false]
    rfl
  | cons event rest ih =>
    obtain ⟨suppresses, hsuppresses⟩ := hclass event (List.mem_cons_self ..)
    have hrest := fun registers suppressed => @ih registers suppressed
      fun other hother => hclass other (List.mem_cons_of_mem _ hother)
    have hsketch : suppressesSketch services.groups event = suppresses := by
      rw [suppressesSketch, hsuppresses]
    rw [List.foldlM_cons, BaseRelayCountHll.observe, List.filter_cons, List.any_cons, hsketch]
    dsimp only
    rw [hsuppresses, Except.ok_bind]
    cases suppresses with
    | true =>
      have hnext := hrest registers true
      rw [Bool.true_or] at hnext
      rw [Bool.true_or, Bool.or_true]
      exact hnext
    | false =>
      rw [Bool.false_or]
      simp only [Bool.false_eq_true, if_false, Bool.not_false, if_true, List.foldlM_cons]
      cases services.reads.addElement registers event.pubkey offset with
      | error error => rfl
      | ok added => exact hrest added suppressed

/-- What one filter adds when there is no offset. -/
theorem countNextFilter_none {auth : GroupAuthContext} {filter : PocketFilter}
    (h : cells.hll.offset = none) : services.countNextFilter auth cells filter =
      (fun found => ⟨found.events.foldl (fun seen event => seen.insert event.id) cells.seen,
        cells.groupReadDenied || found.groupReadDenied, cells.queryMetrics.add found.queryMetrics,
        cells.hll⟩) <$> services.queryFilterEventsReport services.query.exactCount filter auth
          .preserveCountLimitless := by
  have hsuppress : ∀ denied : Bool, (if denied then cells.hll.suppress else cells.hll) =
      cells.hll := by
    intro denied
    rw [BaseRelayCountHll.suppress, h]
    exact ite_self _
  unfold RelayServices.countNextFilter
  cases services.queryFilterEventsReport services.query.exactCount filter auth
    .preserveCountLimitless with
  | error error => rfl
  | ok found =>
    rw [Except.ok_bind, hsuppress, countEvents_eq, observe_none h]
    rfl

/-- What the only filter adds to a sketch. -/
theorem countFound_some {offset : Nat} {registers : services.reads.Hll8} {suppressed : Bool}
    {found : BaseRelayEventQueryReport}
    (hhll : cells.hll = ⟨some offset, some registers, suppressed⟩)
    (hclass : ∀ event ∈ found.events,
      (BaseRelay.eventSuppressesCountHll services.groups event).Succeeds) :
    found.events.foldlM services.countEvent { cells with
        groupReadDenied := cells.groupReadDenied || found.groupReadDenied
        hll := if found.groupReadDenied then cells.hll.suppress else cells.hll
        queryMetrics := cells.queryMetrics.add found.queryMetrics } =
      (fun registers => ⟨found.events.foldl (fun seen event => seen.insert event.id) cells.seen,
        cells.groupReadDenied || found.groupReadDenied, cells.queryMetrics.add found.queryMetrics,
        ⟨some offset, some registers, (found.groupReadDenied || suppressed) ||
          found.events.any (suppressesSketch services.groups)⟩⟩) <$>
        ((found.events.filter fun event => !suppressesSketch services.groups event).foldlM
          (fun registers event => services.reads.addElement registers event.pubkey offset)
          registers).mapError BaseRelayError.error := by
  have hdenied : (if found.groupReadDenied then cells.hll.suppress else cells.hll) =
      ⟨some offset, some registers, found.groupReadDenied || suppressed⟩ := by
    rw [hhll]
    cases found.groupReadDenied <;> rfl
  rw [countEvents_eq, hdenied, observe_some hclass]
  generalize Except.mapError _ _ = result
  cases result <;> rfl

end

/-! ## Two states -/

/-- An event of the group that can be found matches the filter. -/
def MatchesInGroup {reads : PocketReads} (search : PocketSearch reads) (limits : GroupLimitsConfig)
    (groupId : GroupId) (store : PocketStore) (filter : PocketFilter) : Prop :=
  ∃ event ∈ search.findable store.events, event.IsOf limits groupId ∧
    reads.eventMatches filter event = .ok true

/-- The sketches are the same, or one is left out where something hidden matches that does not match
in the other state. -/
inductive SketchesBeside (hidden hidden' : Prop) : Option String → Option String → Prop
  | same (hll : Option String) : SketchesBeside hidden hidden' hll hll
  | leftOut {sketch} : hidden → ¬hidden' → SketchesBeside hidden hidden' none (some sketch)
  | leftOut' {sketch} : ¬hidden → hidden' → SketchesBeside hidden hidden' (some sketch) none

section
variable {reads : PocketReads} {relay : Relay} {search : PocketSearch reads}
  {auth : GroupAuthContext} {groupId : GroupId} {state state' : GroupServiceState}
  {store store' : PocketStore} {event : PocketEvent} {limits : BaseRelayRequestLimits}
  {query : PocketQueryConfig} {filter : PocketFilter} {filters : List PocketFilter}

theorem not_visibleTo_of_hidden (hhides : state.readGate.HidesFrom groupId auth)
    (hof : event.IsOf state.limits groupId) : ¬VisibleTo (some state) auth event := by
  intro hvisible
  have hgate : BaseRelay.groupReadGateVisibleToAuth (some state) event auth = .ok false :=
    Except.mapError_eq_ok.mpr (eventVisibleToAuth_of_hidden hhides hof)
  cases (visibleTo_iff hgate).mp hvisible

/-- What is found is classified. -/
theorem suppresses_succeeds {found : BaseRelayEventQueryReport} (hall : search.ScreensAll)
    (hapart : reads.MatchesApartFromLimit) (hreached : relay.Reachable (.up (some state) store))
    (hfound : (servicesOf reads limits query state store).queryFilterEventsReport query.exactCount
      filter auth .preserveCountLimitless = .ok found) :
    ∀ event ∈ found.events, (BaseRelay.eventSuppressesCountHll (some state) event).Succeeds := by
  intro event hevent
  obtain ⟨_, hcounts, _⟩ := @counts_of_query (servicesOf reads limits query state store) auth filter
    search found hall hapart hfound
  obtain ⟨eventClass, hclass⟩ := class_of_findable hreached ((hcounts event).mp hevent).findable
  refine Except.succeeds_bind.mpr ⟨eventClass, Except.mapError_eq_ok.mpr hclass, ?_⟩
  cases eventClass.groupId with
  | none => exact ⟨false, rfl⟩
  | some other => exact ⟨_, rfl⟩

namespace BesideHidden

variable (h : BesideHidden relay search auth groupId state store state' store')
include h

/-- No group is open in one state only. -/
theorem isOpenGroup_eq (other : GroupId) : BaseRelay.isOpenGroup state'.projection other =
    BaseRelay.isOpenGroup state.projection other := by
  have hclosed : ∀ state : GroupServiceState, state.readGate.HidesFrom groupId auth →
      BaseRelay.isOpenGroup state.projection groupId = false := by
    intro state hhides
    refine Bool.eq_false_iff.mpr fun hopen => ?_
    obtain ⟨group, hgroup, _, _, hnot⟩ := isOpenGroup_eq_true.mp hopen
    rw [hhides.hidden group hgroup] at hnot
    cases hnot
  by_cases heq : other = groupId
  · subst heq
    rw [hclosed state h.hides, hclosed state' h.hides']
  · rw [BaseRelay.isOpenGroup, BaseRelay.isOpenGroup, h.group other heq, h.tombstone other heq]

theorem targetPolicy_eq : BaseRelay.countHllFilterTargetPolicy (some state') filter =
    BaseRelay.countHllFilterTargetPolicy (some state) filter := by
  unfold BaseRelay.countHllFilterTargetPolicy
  dsimp only
  rw [h.limits, funext h.isOpenGroup_eq]

theorem suppressesSketch_eq : suppressesSketch (some state') = suppressesSketch (some state) := by
  funext event
  unfold suppressesSketch BaseRelay.eventSuppressesCountHll
  simp only [h.limits, h.isOpenGroup_eq]

/-- An event that is not of the group is visible in both states or in neither. -/
theorem visibleTo_iff (hdb : relay.db.FindsStored) (hids : relay.db.Faithful)
    (hevent : event ∈ search.findable store.events) (hnot : ¬event.IsOf state.limits groupId) :
    VisibleTo (some state') auth event ↔ VisibleTo (some state) auth event := by
  obtain ⟨visible, hvisible⟩ := @exists_eventVisibleToAuth event auth state
    (class_of_findable h.reached hevent)
  have hgate : BaseRelay.groupReadGateVisibleToAuth (some state) event auth = .ok visible :=
    Except.mapError_eq_ok.mpr hvisible
  have hgate' := (h.gate_eq hdb hids hevent hnot).trans hgate
  exact (Tangle.visibleTo_iff hgate').trans (Tangle.visibleTo_iff hgate).symm

/-- The gate hides an event that matches in both states or in neither, but for the group's. -/
theorem denied_cases (hdb : relay.db.FindsStored) (hids : relay.db.Faithful) {denied denied' : Bool}
    (hdenied : denied = true ↔ ∃ event ∈ search.findable store.events,
      reads.eventMatches filter event = .ok true ∧ ¬VisibleTo (some state) auth event)
    (hdenied' : denied' = true ↔ ∃ event ∈ search.findable store'.events,
      reads.eventMatches filter event = .ok true ∧ ¬VisibleTo (some state') auth event) :
    denied = denied' ∨
      (denied = true ∧ denied' = false ∧ MatchesInGroup search state.limits groupId store filter ∧
        ¬MatchesInGroup search state.limits groupId store' filter) ∨
      denied = false ∧ denied' = true ∧ ¬MatchesInGroup search state.limits groupId store filter ∧
        MatchesInGroup search state.limits groupId store' filter := by
  have hofGroup : MatchesInGroup search state.limits groupId store filter → denied = true :=
    fun ⟨event, hevent, hof, hmatch⟩ =>
      hdenied.mpr ⟨event, hevent, hmatch, not_visibleTo_of_hidden h.hides hof⟩
  have hofGroup' : MatchesInGroup search state.limits groupId store' filter → denied' = true :=
    fun ⟨event, hevent, hof, hmatch⟩ => hdenied'.mpr ⟨event, hevent, hmatch,
      not_visibleTo_of_hidden h.hides' (h.limits.symm ▸ hof)⟩
  have hother : denied = true → denied' = true ∨
      MatchesInGroup search state.limits groupId store filter := by
    intro htrue
    obtain ⟨event, hevent, hmatch, hhidden⟩ := hdenied.mp htrue
    by_cases hof : event.IsOf state.limits groupId
    · exact .inr ⟨event, hevent, hof, hmatch⟩
    · refine .inl (hdenied'.mpr ⟨event, (h.findable event hof).mpr hevent, hmatch, ?_⟩)
      exact fun hvisible => hhidden ((h.visibleTo_iff hdb hids hevent hof).mp hvisible)
  have hother' : denied' = true → denied = true ∨
      MatchesInGroup search state.limits groupId store' filter := by
    intro htrue
    obtain ⟨event, hevent, hmatch, hhidden⟩ := hdenied'.mp htrue
    by_cases hof : event.IsOf state.limits groupId
    · exact .inr ⟨event, hevent, hof, hmatch⟩
    · have hevent := (h.findable event hof).mp hevent
      refine .inl (hdenied.mpr ⟨event, hevent, hmatch, ?_⟩)
      exact fun hvisible => hhidden ((h.visibleTo_iff hdb hids hevent hof).mpr hvisible)
  cases denied with
  | false =>
    cases denied' with
    | false => exact .inl rfl
    | true =>
      refine .inr (.inr ⟨rfl, rfl, fun hmatch => Bool.false_ne_true (hofGroup hmatch), ?_⟩)
      exact (hother' rfl).resolve_left Bool.false_ne_true
  | true =>
    cases denied' with
    | true => exact .inl rfl
    | false =>
      refine .inr (.inl ⟨rfl, rfl, ?_, fun hmatch => Bool.false_ne_true (hofGroup' hmatch)⟩)
      exact (hother rfl).resolve_left Bool.false_ne_true

/-- Without an offset both counts take in the same ids. -/
theorem countFilters_alike_none {cells cells' : CountCells reads} (hmatches : reads.MatchesTotal)
    (hdb : relay.db.FindsStored) (hids : relay.db.Faithful) (hseen : cells.seen = cells'.seen)
    (hhll : cells.hll = cells'.hll) (hoffset : cells.hll.offset = none) :
    Except.Alike (fun cells cells' : CountCells reads => cells.seen = cells'.seen ∧
        cells.hll = cells'.hll)
      (filters.foldlM ((servicesOf reads limits query state store).countNextFilter auth) cells)
      (filters.foldlM ((servicesOf reads limits query state' store').countNextFilter auth)
        cells') := by
  refine (Except.Alike.foldlM (R := fun cells cells' : CountCells reads =>
    (cells.seen = cells'.seen ∧ cells.hll = cells'.hll) ∧ cells.hll.offset = none)
    ⟨⟨hseen, hhll⟩, hoffset⟩ fun cells cells' filter _ ⟨⟨hseen, hhll⟩, hoffset⟩ => ?_).mono
      fun _ _ hend => hend.1
  have hoffset' : cells'.hll.offset = none := hhll ▸ hoffset
  have hnext := @countNextFilter_none (servicesOf reads limits query state store) cells auth filter
    hoffset
  have hnext' := @countNextFilter_none (servicesOf reads limits query state' store') cells' auth
    filter hoffset'
  rw [hnext, hnext']
  refine (h.queryFilterEventsReport_alike hmatches hdb hids).map fun found found' hfound =>
    ⟨⟨?_, hhll⟩, hoffset⟩
  dsimp only
  rw [hseen, seen_eq hfound.1]

/-- With an offset both counts take in the same ids, and their sketches differ only when one is left
out for the group. -/
theorem countFilter_alike_some {cells cells' : CountCells reads} {offset : Nat}
    {suppressed : Bool} (hall : search.ScreensAll)
    (hapart : reads.MatchesApartFromLimit) (hunordered : reads.SketchUnordered)
    (hmatches : reads.MatchesTotal) (hdb : relay.db.FindsStored) (hids : relay.db.Faithful)
    (hseen : cells.seen = cells'.seen)
    (hhll : cells.hll = ⟨some offset, some reads.newHll8, suppressed⟩)
    (hhll' : cells'.hll = ⟨some offset, some reads.newHll8, suppressed⟩) :
    Except.Alike (fun cells cells' : CountCells reads => cells.seen = cells'.seen ∧
        SketchesBeside (MatchesInGroup search state.limits groupId store filter)
          (MatchesInGroup search state.limits groupId store' filter) cells.hll.intoHex
          cells'.hll.intoHex)
      ((servicesOf reads limits query state store).countNextFilter auth cells filter)
      ((servicesOf reads limits query state' store').countNextFilter auth cells' filter) := by
  refine (h.queryFilterEventsReport_alike hmatches hdb hids).runs.bind
    fun found found' ⟨hfound, hfound', hperm, _⟩ => ?_
  obtain ⟨_, _, hdenied⟩ := @counts_of_query (servicesOf reads limits query state store) auth filter
    search found hall hapart hfound
  obtain ⟨_, _, hdenied'⟩ := @counts_of_query (servicesOf reads limits query state' store') auth
    filter search found' hall hapart hfound'
  have hnext := @countFound_some (servicesOf reads limits query state store) cells offset
    reads.newHll8 suppressed found hhll (suppresses_succeeds hall hapart h.reached hfound)
  have hnext' := @countFound_some (servicesOf reads limits query state' store') cells' offset
    reads.newHll8 suppressed found' hhll' (suppresses_succeeds hall hapart h.reached' hfound')
  rw [hnext, hnext']
  have hsketch : suppressesSketch (servicesOf reads limits query state' store').groups =
      suppressesSketch (servicesOf reads limits query state store).groups := h.suppressesSketch_eq
  rw [hsketch]
  have hsketches := hunordered offset _ _ (hperm.filter fun event =>
    !suppressesSketch (servicesOf reads limits query state store).groups event)
  refine hsketches.mapError.map fun made made' hhex => ⟨?_, ?_⟩
  · dsimp only
    rw [hseen, seen_eq hperm]
  · have hany : found.events.any (suppressesSketch
        (servicesOf reads limits query state store).groups) =
        found'.events.any (suppressesSketch (servicesOf reads limits query state store).groups) :=
      Bool.eq_iff_iff.mpr (by simp only [List.any_eq_true, hperm.mem_iff])
    change SketchesBeside _ _
      (if (found.groupReadDenied || suppressed) || found.events.any _ then none else
        some (reads.toHexString made))
      (if (found'.groupReadDenied || suppressed) || found'.events.any _ then none else
        some (reads.toHexString made'))
    rw [hany, ← hhex]
    rcases h.denied_cases hdb hids hdenied hdenied' with hsame | ⟨htrue, hfalse, hin, hnot⟩ |
      ⟨hfalse, htrue, hnot, hin⟩
    · rw [hsame]
      exact .same _
    · rw [htrue, hfalse, Bool.true_or, Bool.true_or, if_pos rfl, Bool.false_or]
      split
      · exact .same none
      · exact .leftOut hin hnot
    · rw [htrue, hfalse, Bool.true_or, Bool.true_or, if_pos rfl, Bool.false_or]
      split
      · exact .same none
      · exact .leftOut' hnot hin

/-- The counts of all the filters. -/
theorem countEvents_alike (hall : search.ScreensAll) (hapart : reads.MatchesApartFromLimit)
    (hunordered : reads.SketchUnordered) (hmatches : reads.MatchesTotal)
    (hdb : relay.db.FindsStored) (hids : relay.db.Faithful) :
    Except.Alike (fun cells cells' : CountCells reads => cells.seen = cells'.seen ∧
        SketchesBeside
          (∃ filter ∈ filters, MatchesInGroup search state.limits groupId store filter)
          (∃ filter ∈ filters, MatchesInGroup search state.limits groupId store' filter)
          cells.hll.intoHex cells'.hll.intoHex)
      ((servicesOf reads limits query state store).countEvents filters auth)
      ((servicesOf reads limits query state' store').countEvents filters auth) := by
  have hpolicy : ∀ {hll : BaseRelayCountHll reads}, hll.suppressForFilterTargets (some state')
      filters = hll.suppressForFilterTargets (some state) filters := by
    intro hll
    unfold BaseRelayCountHll.suppressForFilterTargets
    split
    · rw [h.targetPolicy_eq]
    · rfl
  refine (Except.Alike.refl (R := fun hll hll' => hll = hll' ∧
    BaseRelayCountHll.new reads filters = .ok hll) fun hll hnew => ⟨rfl, hnew⟩).bind
    fun hll _ ⟨hsame, hnew⟩ => ?_
  subst hsame
  obtain ⟨offset, hoffset, hnew⟩ := Except.bind_eq_ok.mp hnew
  cases hnew
  change Except.Alike _
    (filters.foldlM _ (CountCells.mk ∅ false .default
      (BaseRelayCountHll.suppressForFilterTargets _ (some state) filters)))
    (filters.foldlM _ (CountCells.mk ∅ false .default
      (BaseRelayCountHll.suppressForFilterTargets _ (some state') filters)))
  rw [hpolicy]
  cases offset with
  | none =>
    have hnone : (BaseRelayCountHll.suppressForFilterTargets
        (⟨none, none, false⟩ : BaseRelayCountHll reads) (some state) filters).offset = none :=
      congrArg BaseRelayCountHll.offset (@suppressForFilterTargets_of_no_offset
        (servicesOf reads limits query state store) _ filters rfl)
    refine (@countFilters_alike_none _ _ _ _ _ _ _ _ _ limits query filters h _ _ hmatches hdb hids
      rfl rfl hnone).mono fun cells cells' ⟨hseen, hhll⟩ => ⟨hseen, ?_⟩
    rw [hhll]
    exact .same _
  | some offset =>
    unfold BaseRelayCountHll.countHllOffset at hoffset
    split at hoffset
    · next filter hcounted =>
      have htargets : BaseRelayCountHll.suppressForFilterTargets
          (⟨some offset, some reads.newHll8, false⟩ : BaseRelayCountHll reads) (some state)
          [filter] = ⟨some offset, some reads.newHll8,
            decide (BaseRelay.countHllFilterTargetPolicy (some state) filter = .suppress)⟩ :=
        @suppressForFilterTargets_eq (servicesOf reads limits query state store) filter offset
          reads.newHll8
      refine (h.countFilter_alike_some hall hapart hunordered hmatches hdb hids rfl htargets
        htargets).bind fun cells cells' ⟨hseen, hsketches⟩ => .ok ⟨hseen, ?_⟩
      simpa only [List.mem_singleton, exists_eq_left] using hsketches
    · cases hoffset

end BesideHidden

/-- **Counts beside a hidden group.** In two states that differ only in a group that is hidden from
the reader, a count fails with the same error or is answered in both, and then with the same number.
The sketches are the same, too, unless an event of the group matches a filter in one of the states
only, which then leaves its sketch out. -/
theorem count_besideHidden (hall : search.ScreensAll) (hapart : reads.MatchesApartFromLimit)
    (hunordered : reads.SketchUnordered) (hmatches : reads.MatchesTotal)
    (hdb : relay.db.FindsStored) (hids : relay.db.Faithful)
    (h : BesideHidden relay search auth groupId state store state' store')
    (limits : BaseRelayRequestLimits) (query : PocketQueryConfig) (subscriptionId : SubscriptionId)
    (filters : List PocketFilter) (searchPresent : Bool) :
    Except.Alike (fun report report' => report.message = report'.message ∨ ∃ count hll hll',
        report.message = .count subscriptionId count hll ∧
          report'.message = .count subscriptionId count hll' ∧
          SketchesBeside
            (∃ filter ∈ filters, MatchesInGroup search state.limits groupId store filter)
            (∃ filter ∈ filters, MatchesInGroup search state.limits groupId store' filter) hll hll')
      ((servicesOf reads limits query state store).handleCountWithGroupAuth subscriptionId filters
        searchPresent auth)
      ((servicesOf reads limits query state' store').handleCountWithGroupAuth subscriptionId filters
        searchPresent auth) := by
  unfold RelayServices.handleCountWithGroupAuth BaseRelay.unsupportedSearchPresentClosed
  refine (Except.Alike.refl (R := fun _ _ => True) fun _ _ => trivial).bind fun _ _ _ => ?_
  cases searchPresent with
  | true => exact .ok (.inl rfl)
  | false =>
    refine (h.countEvents_alike hall hapart hunordered hmatches hdb hids).bind
      fun cells cells' ⟨hseen, hsketches⟩ => .ok (.inr ⟨cells.seen.size, _, _, rfl, ?_, hsketches⟩)
    exact congrArg (fun count => RelayMessage.count subscriptionId count cells'.hll.intoHex)
      (congrArg Std.ExtTreeSet.size hseen.symm)

end

namespace Sample

/-- The plain sketch counts what it is made of. -/
theorem plainReads_sketchUnordered : plainReads.SketchUnordered := by
  have hsketch : ∀ (offset : Nat) (events : List PocketEvent) (registers : List PublicKeyHex),
      ∃ all : List PublicKeyHex, events.foldlM (fun registers event =>
          plainReads.addElement registers event.pubkey offset) registers = .ok all ∧
        all.length = registers.length + events.length := by
    intro offset events
    induction events with
    | nil => exact fun registers => ⟨registers, rfl, rfl⟩
    | cons event rest ih =>
      intro registers
      obtain ⟨all, hall, hlength⟩ := ih (event.pubkey :: registers)
      refine ⟨all, hall, ?_⟩
      rw [hlength, List.length_cons, List.length_cons, Nat.add_right_comm, Nat.add_assoc]
  intro offset events events' hperm
  obtain ⟨all, hall, hlength⟩ := hsketch offset events []
  obtain ⟨all', hall', hlength'⟩ := hsketch offset events' []
  have hcounts : all.length = all'.length := by rw [hlength, hlength', hperm.length_eq]
  unfold sketchOf
  rw [show plainReads.newHll8 = ([] : List PublicKeyHex) from rfl, hall, hall']
  exact .ok (congrArg (fun n => String.ofList (Nat.toDigits 16 n)) hcounts)

/-- The reply to a member who counts the notes about farms. -/
def farmNotesNumber (state : GroupServiceState) (store : PocketStore) :
    Except BaseRelayError RelayMessage :=
  BaseRelayCountReport.message <$>
    (farmServices state store).handleCountWithGroupAuth feed [farmNotes] false (authAs member)

end Sample

section
open Sample

/-- A member who counts the notes about farms gets a sketch only while there is no hidden note among
them: a hidden one takes the sketch from the answer, which tells the reader that it is there. -/
theorem sketch_tells_of_hidden : ∃ state store state' store' report report',
    BesideHidden relay plainSearch (authAs member) farm state store state' store' ∧
      (farmServices state store).handleCountWithGroupAuth feed [farmNotes] false (authAs member) =
        .ok report ∧
      (farmServices state' store').handleCountWithGroupAuth feed [farmNotes] false
        (authAs member) = .ok report' ∧
      report.message = .count feed 1 (some "1") ∧ report'.message = .count feed 1 none := by
  have hscript : relay.ScriptEnds (fun _ _ => true) farmNoted fun state store =>
      NotedBesideFarm state store ∧
        farmNotesNumber state store = .ok (.count feed 1 (some "1")) := by
    decide +kernel
  have hscript' : relay.ScriptEnds (fun _ _ => true) hiddenFarmNoted fun state store =>
      NotedBesideFarm state store ∧ farmNotesNumber state store = .ok (.count feed 1 none) := by
    decide +kernel
  obtain ⟨state, store, hreaches, hnoted, hnumber⟩ := hscript.reaches
  obtain ⟨state', store', hreaches', hnoted', hnumber'⟩ := hscript'.reaches
  obtain ⟨report, hreport, hmessage⟩ := Except.map_eq_ok.mp hnumber
  obtain ⟨report', hreport', hmessage'⟩ := Except.map_eq_ok.mp hnumber'
  have hbeside := besideHidden_of_noted (hreaches.mono fun _ _ _ => trivial)
    (hreaches'.mono fun _ _ _ => trivial) hnoted hnoted'
  exact ⟨state, store, state', store', report, report', hbeside, hreport, hreport', hmessage,
    hmessage'⟩

/-- The theorem at two stores of which one holds a hidden group's note beside the visible one: the
counts are the same, and the sketches differ as the hidden note says. -/
theorem count_besideHidden_farmNoted : ∃ state store state' store',
    BesideHidden relay plainSearch (authAs member) farm state store state' store' ∧
      Except.Alike (fun report report' => report.message = report'.message ∨ ∃ count hll hll',
          report.message = .count feed count hll ∧ report'.message = .count feed count hll' ∧
            SketchesBeside
              (∃ filter ∈ [farmNotes], MatchesInGroup plainSearch state.limits farm store filter)
              (∃ filter ∈ [farmNotes], MatchesInGroup plainSearch state.limits farm store' filter)
              hll hll')
        ((farmServices state store).handleCountWithGroupAuth feed [farmNotes] false (authAs member))
        ((farmServices state' store').handleCountWithGroupAuth feed [farmNotes] false
          (authAs member)) := by
  have hscript : relay.ScriptEnds (fun _ _ => true) farmNoted NotedBesideFarm := by
    decide +kernel
  have hscript' : relay.ScriptEnds (fun _ _ => true) hiddenFarmNoted NotedBesideFarm := by
    decide +kernel
  obtain ⟨state, store, hreaches, hnoted⟩ := hscript.reaches
  obtain ⟨state', store', hreaches', hnoted'⟩ := hscript'.reaches
  have hbeside := besideHidden_of_noted (hreaches.mono fun _ _ _ => trivial)
    (hreaches'.mono fun _ _ _ => trivial) hnoted hnoted'
  exact ⟨state, store, state', store', hbeside, count_besideHidden plainSearch_screensAll
    plainReads_matchesApartFromLimit plainReads_sketchUnordered plainReads_matchesTotal
    plainDb_findsStored plainDb_faithful hbeside _ _ feed _ false⟩

end

end Tangle
