import Tangle.Lib.Alike
import Tangle.Relay.Counts
import Tangle.Runtime.Script
import Tangle.Runtime.StoredEvents

/-!
# Reading beside a hidden group

Two states of a relay that differ only in a group, which is hidden and of which the reader is no
member, are read side by side (`DifferOnlyIn`). The gate hides every event of the group in both and
decides alike on all others, so both replies bring the same events and both counts are the same.
What may differ is what the relay says beside them: that it has hidden something. A request ends
with a refusal when the search has met a hidden event (`query_besideHidden`), and a count leaves its
sketch out when there is a hidden event that matches (`count_besideHidden`).
-/

namespace Tangle

/-! ## The gate -/

/-- The group is hidden, if it is there, and the reader is neither of the relay nor a member. -/
structure GroupReadGate.HidesFrom (gate : GroupReadGate) (groupId : GroupId)
    (auth : GroupAuthContext) : Prop where
  hidden : ∀ group, gate.projection.group groupId = some group → group.metadata.hidden = true
  unread : ∀ pubkey ∈ auth.authenticatedPubkeys, gate.canReadGroup groupId (some pubkey) = false

/-- The event is of the group. -/
def PocketEvent.IsOf (event : PocketEvent) (limits : GroupLimitsConfig)
    (groupId : GroupId) : Prop :=
  ∃ eventClass, classifyGroupEvent event limits = .ok eventClass ∧
    eventClass.groupId = some groupId

instance (event : PocketEvent) (limits : GroupLimitsConfig) (groupId : GroupId) :
    Decidable (event.IsOf limits groupId) :=
  match h : classifyGroupEvent event limits with
  | .ok eventClass =>
    if hgroup : eventClass.groupId = some groupId then
      .isTrue ⟨eventClass, h, hgroup⟩
    else
      .isFalse fun ⟨_, hclass, hof⟩ => hgroup (Except.ok.inj (h.symm.trans hclass) ▸ hof)
  | .error _ => .isFalse fun ⟨_, hclass, _⟩ => nomatch h.symm.trans hclass

section
variable {event : PocketEvent} {limits : GroupLimitsConfig} {groupId : GroupId}
  {auth : GroupAuthContext} {state state' : GroupServiceState}

/-- The gate hides the events of a hidden group. -/
theorem screenEvent_of_hidden {gate : GroupReadGate} {reader : Option PublicKeyHex}
    (hhidden : ∀ group, gate.projection.group groupId = some group → group.metadata.hidden = true)
    (hunread : gate.canReadGroup groupId reader = false) (hof : event.IsOf limits groupId) :
    gate.screenEvent event reader limits = .ok .hidden := by
  have hnormal : gate.screenNormalEvent groupId reader = .hidden := by
    unfold GroupReadGate.screenNormalEvent
    cases hgroup : gate.projection.group groupId with
    | none => rfl
    | some group => simp [hhidden group hgroup, hunread]
  have hmarker : ∀ id, gate.screenDeleteGroupMarker id groupId reader = .hidden := by
    intro id
    unfold GroupReadGate.screenDeleteGroupMarker
    cases hgroup : gate.projection.group groupId with
    | none => rfl
    | some group => simp [hhidden group hgroup, hunread, hnormal]
  have hsnapshot : ∀ kind, gate.screenSnapshotEvent kind groupId reader = .hidden := by
    intro kind
    unfold GroupReadGate.screenSnapshotEvent
    cases hgroup : gate.projection.group groupId with
    | none => rfl
    | some group => simp [hhidden group hgroup, hunread]
  obtain ⟨eventClass, hclass, hgroup⟩ := hof
  unfold GroupReadGate.screenEvent
  rw [GroupEventView.id_eq, Except.ok_bind]
  split
  · rfl
  · rw [hclass, Except.ok_bind]
    cases eventClass with
    | nonGroup => cases hgroup
    | normal other =>
      cases hgroup
      exact congrArg Except.ok hnormal
    | moderation kind other =>
      cases hgroup
      dsimp only
      split
      · exact congrArg Except.ok (hmarker _)
      · exact congrArg Except.ok hnormal
    | relayGeneratedSnapshot kind other =>
      cases hgroup
      exact congrArg Except.ok (hsnapshot _)

theorem visibleToAny_of_hidden {pubkeys : List PublicKeyHex} (h : ∀ pubkey ∈ pubkeys,
    state.readGate.screenEvent event (some pubkey) state.limits = .ok .hidden) :
    state.visibleToAny event pubkeys = .ok false := by
  induction pubkeys with
  | nil => rfl
  | cons pubkey rest ih =>
    rw [GroupServiceState.visibleToAny, h pubkey (List.mem_cons_self ..), Except.ok_bind]
    exact ih fun other hother => h other (List.mem_cons_of_mem _ hother)

/-- No event of a hidden group is visible. -/
theorem eventVisibleToAuth_of_hidden (h : state.readGate.HidesFrom groupId auth)
    (hof : event.IsOf state.limits groupId) : state.eventVisibleToAuth event auth = .ok false := by
  unfold GroupServiceState.eventVisibleToAuth
  split
  · rw [screenEvent_of_hidden h.hidden rfl hof]
    rfl
  · exact visibleToAny_of_hidden fun pubkey hpubkey =>
      screenEvent_of_hidden h.hidden (h.unread pubkey (BTreeSet.mem_toList.mp hpubkey)) hof

theorem visibleToAny_congr {pubkeys : List PublicKeyHex} (h : ∀ reader,
    state'.readGate.screenEvent event reader state'.limits =
      state.readGate.screenEvent event reader state.limits) :
    state'.visibleToAny event pubkeys = state.visibleToAny event pubkeys := by
  induction pubkeys with
  | nil => rfl
  | cons pubkey rest ih =>
    rw [GroupServiceState.visibleToAny, GroupServiceState.visibleToAny, h, ih]

/-- Whether an event is visible depends on what the gate says to each reader. -/
theorem eventVisibleToAuth_congr (h : ∀ reader,
    state'.readGate.screenEvent event reader state'.limits =
      state.readGate.screenEvent event reader state.limits) :
    state'.eventVisibleToAuth event auth = state.eventVisibleToAuth event auth := by
  unfold GroupServiceState.eventVisibleToAuth
  rw [h, visibleToAny_congr h]

/-- The gate decides on every event that is classified. -/
theorem exists_eventVisibleToAuth (h : (classifyGroupEvent event state.limits).Succeeds) :
    ∃ visible, state.eventVisibleToAuth event auth = .ok visible := by
  have hscreen : ∀ reader, ∃ decision,
      state.readGate.screenEvent event reader state.limits = .ok decision := by
    intro reader
    obtain ⟨eventClass, hclass⟩ := h
    unfold GroupReadGate.screenEvent
    rw [GroupEventView.id_eq, Except.ok_bind, hclass, Except.ok_bind]
    split
    · exact ⟨_, rfl⟩
    · cases eventClass with
      | moderation kind groupId =>
        dsimp only
        split <;> exact ⟨_, rfl⟩
      | _ => exact ⟨_, rfl⟩
  have hany : ∀ pubkeys : List PublicKeyHex, ∃ visible,
      state.visibleToAny event pubkeys = .ok visible := by
    intro pubkeys
    induction pubkeys with
    | nil => exact ⟨_, rfl⟩
    | cons pubkey rest ih =>
      obtain ⟨decision, hdecision⟩ := hscreen (some pubkey)
      rw [GroupServiceState.visibleToAny, hdecision, Except.ok_bind]
      split
      · exact ⟨_, rfl⟩
      · exact ih
  unfold GroupServiceState.eventVisibleToAuth
  split
  · obtain ⟨decision, hdecision⟩ := hscreen none
    rw [hdecision]
    exact ⟨_, rfl⟩
  · exact hany _

end

/-! ## Searches -/

namespace RelayServices

/-- What the screen says of a candidate; after a failure it is a mismatch. -/
def screens (services : RelayServices) (filter : PocketFilter) (auth : GroupAuthContext)
    (event : PocketEvent) : PocketScreenResult :=
  match services.screenDecision filter auth event with
  | .ok result => result
  | .error _ => .mismatch

end RelayServices

section
variable {services : RelayServices} {search : PocketSearch services.reads} {auth : GroupAuthContext}
  {filter pocketFilter : PocketFilter} {query : PocketQueryConfig}
  {limitMode : BaseRelayFilterLimitMode}

theorem screenDecision_eq_screens {event : PocketEvent}
    (h : (services.screenDecision filter auth event).Succeeds) :
    services.screenDecision filter auth event = .ok (services.screens filter auth event) := by
  obtain ⟨result, h⟩ := h
  rw [RelayServices.screens, h]

/-- The screen decides by what it says, as long as nothing has failed. -/
theorem screenPocketEvent_decidesBy {candidates : List PocketEvent}
    (h : ∀ event ∈ candidates, (services.screenDecision filter auth event).Succeeds) :
    (services.screenPocketEvent filter auth).DecidesBy (fun cells => cells.screenError = none)
      candidates (services.screens filter auth) := by
  intro event hevent cells hcells
  rw [run_screenPocketEvent hcells, screenDecision_eq_screens (h event hevent)]
  exact ⟨rfl, ScreenCells.screenError_note.mpr ⟨⟨_, rfl⟩, hcells⟩⟩

/-- A search for too much is refused. -/
theorem queryFilterEventsReport_refused {error : String}
    (hfilter : services.pocketFilterWithLimitMode filter limitMode = .ok pocketFilter)
    (hrefused : search.refusesSearch pocketFilter query = some error) :
    services.queryFilterEventsReport query filter auth limitMode = .error (.error error) := by
  have hfound := @PocketSearch.refused _ search _ services.events pocketFilter query
    (services.screenPocketEvent pocketFilter auth) .new error hrefused
  unfold RelayServices.queryFilterEventsReport
  rw [hfilter, Except.ok_bind]
  generalize StateT.run (services.reads.findEvents services.events pocketFilter query
    (services.screenPocketEvent pocketFilter auth)) .new = result at hfound ⊢
  obtain ⟨found, cells⟩ := result
  cases hfound
  rfl

/-- Any other search finds the newest visible events that match, when the screen decides on all
that can be found. -/
theorem queryFilterEventsReport_found
    (hfilter : services.pocketFilterWithLimitMode filter limitMode = .ok pocketFilter)
    (hallowed : search.refusesSearch pocketFilter query = none)
    (hdecided : ∀ event ∈ search.findable services.events,
      (services.screenDecision pocketFilter auth event).Succeeds) :
    ∃ found, services.queryFilterEventsReport query filter auth limitMode = .ok found ∧
      found.events.Perm (pocketFilter.takeLimit (((search.findable services.events).filter
        fun event => services.reads.eventMatches pocketFilter event = .ok true ∧
          services.screens pocketFilter auth event = .isMatch).insertionSort NewerFirst)) ∧
      found.groupReadDenied = (search.screened services.events pocketFilter query
        (services.screens pocketFilter auth)).any fun event =>
          services.screens pocketFilter auth event == .redacted := by
  obtain ⟨found, cells, hrun, hcells, hperm⟩ := @PocketSearch.found _ search _ services.events
    pocketFilter query _ _ _ .new hallowed (screenPocketEvent_decidesBy hdecided) rfl
  refine ⟨⟨found, _, ⟨cells.candidatesScanned, 0, cells.redactedEvents⟩⟩, ?_, hperm, rfl⟩
  unfold RelayServices.queryFilterEventsReport
  rw [hfilter, Except.ok_bind, hrun]
  dsimp only
  rw [hcells]
  rfl

end

/-! ## Two states -/

/-- What a request is answered from, when the relay runs with the service on the store. -/
def servicesOf (reads : PocketReads) (limits : BaseRelayRequestLimits) (query : PocketQueryConfig)
    (state : GroupServiceState) (store : PocketStore) : RelayServices :=
  ⟨reads, store.events, some state, limits, query⟩

/-- The states differ only in the group: in its entries, in the deletions of its events, and in
which of its events can be found. -/
structure DifferOnlyIn {reads : PocketReads} (search : PocketSearch reads) (groupId : GroupId)
    (state : GroupServiceState) (store : PocketStore) (state' : GroupServiceState)
    (store' : PocketStore) : Prop where
  limits : state'.limits = state.limits
  authority : state'.authority = state.authority
  group : ∀ other, other ≠ groupId →
    state'.projection.group other = state.projection.group other
  member : ∀ other pubkey, other ≠ groupId →
    state'.projection.member other pubkey = state.projection.member other pubkey
  tombstone : ∀ other, other ≠ groupId →
    state'.projection.tombstone other = state.projection.tombstone other
  eventDeletion : ∀ id deletion, deletion.groupId ≠ groupId →
    (state'.projection.eventDeletion id = some deletion ↔
      state.projection.eventDeletion id = some deletion)
  findable : ∀ event : PocketEvent, ¬event.IsOf state.limits groupId →
    (event ∈ search.findable store'.events ↔ event ∈ search.findable store.events)

/-- Two places a relay can get to, which differ only in a group that is hidden from the reader in
both. -/
structure BesideHidden {reads : PocketReads} (relay : Relay) (search : PocketSearch reads)
    (auth : GroupAuthContext) (groupId : GroupId) (state : GroupServiceState) (store : PocketStore)
    (state' : GroupServiceState) (store' : PocketStore) : Prop extends
    DifferOnlyIn search groupId state store state' store' where
  reached : relay.Reachable (.up (some state) store)
  reached' : relay.Reachable (.up (some state') store')
  hides : state.readGate.HidesFrom groupId auth
  hides' : state'.readGate.HidesFrom groupId auth

section
variable {reads : PocketReads} {relay : Relay} {search : PocketSearch reads}
  {auth : GroupAuthContext} {groupId : GroupId} {state state' : GroupServiceState}
  {store store' : PocketStore} {event : PocketEvent}

/-- Every event that can be found is classified. -/
theorem class_of_findable (hreached : relay.Reachable (.up (some state) store))
    (hevent : event ∈ search.findable store.events) :
    (classifyGroupEvent event state.limits).Succeeds := by
  obtain ⟨item, hitem, rfl⟩ := search.stored_of_findable hevent
  exact hreached.descended.2.2 item hitem

/-- A deletion of the group is of no event of another. -/
theorem isOf_of_eventDeletion (hdb : relay.db.FindsStored) (hids : relay.db.Faithful)
    (hreached : relay.Reachable (.up (some state) store)) {deletion : GroupEventDeletion}
    (hevent : event ∈ search.findable store.events)
    (hdeletion : state.projection.eventDeletion event.id = some deletion)
    (hgroup : deletion.groupId = groupId) : event.IsOf state.limits groupId := by
  obtain ⟨item, hitem, hid, hof⟩ :=
    (hreached.deletesStored hdb).2.projection.deletions _ _ hdeletion
  obtain ⟨other, hother, rfl⟩ := search.stored_of_findable hevent
  have hsame : item = other := by
    by_contra hne
    have hdistinct := hreached.descended.1.ids hids
    have : Std.Symm fun a b : StoredEvent => a.event.id ≠ b.event.id := ⟨fun _ _ => Ne.symm⟩
    exact hdistinct.forall hitem hother hne hid
  subst hsame hgroup
  exact hof

namespace BesideHidden

variable (h : BesideHidden relay search auth groupId state store state' store')
include h

/-- The gate decides alike on every other event that can be found. -/
theorem gate_eq (hdb : relay.db.FindsStored) (hids : relay.db.Faithful)
    (hevent : event ∈ search.findable store.events) (hnot : ¬event.IsOf state.limits groupId) :
    BaseRelay.groupReadGateVisibleToAuth (some state') event auth =
      BaseRelay.groupReadGateVisibleToAuth (some state) event auth := by
  have hevent' := (h.findable event hnot).mpr hevent
  have hnot' : ¬event.IsOf state'.limits groupId := h.limits ▸ hnot
  -- what the group's deletions are of
  let targets (id : EventId) : Prop := ∃ deletion : GroupEventDeletion, deletion.groupId = groupId ∧
    (state.projection.eventDeletion id = some deletion ∨
      state'.projection.eventDeletion id = some deletion)
  have hagrees : AgreesOutside groupId targets state.projection state'.projection :=
    { group := h.group
      member := h.member
      tombstone := h.tombstone
      eventDeletion := fun id hid => by
        refine Option.ext fun deletion => ?_
        by_cases hgroup : deletion.groupId = groupId
        · exact ⟨fun hfound => absurd ⟨deletion, hgroup, .inr hfound⟩ hid,
            fun hfound => absurd ⟨deletion, hgroup, .inl hfound⟩ hid⟩
        · exact h.eventDeletion id deletion hgroup }
  have hfree : ¬targets event.id := by
    rintro ⟨deletion, hgroup, hdeletion | hdeletion⟩
    · exact hnot (isOf_of_eventDeletion hdb hids h.reached hevent hdeletion hgroup)
    · exact hnot' (isOf_of_eventDeletion hdb hids h.reached' hevent' hdeletion hgroup)
  have hscreen : ∀ reader, state'.readGate.screenEvent event reader state'.limits =
      state.readGate.screenEvent event reader state.limits := by
    intro reader
    rw [GroupServiceState.readGate, GroupServiceState.readGate, h.limits, h.authority]
    exact hagrees.screenEvent hfree fun eventClass hclass hgroup =>
      hnot ⟨eventClass, hclass, hgroup⟩
  exact congrArg (Except.mapError _) (eventVisibleToAuth_congr hscreen)

/-- The reader's requests in the two states. -/
theorem screenDecision_eq {limits : BaseRelayRequestLimits} {query : PocketQueryConfig}
    {filter : PocketFilter} (hdb : relay.db.FindsStored) (hids : relay.db.Faithful)
    (hevent : event ∈ search.findable store.events) (hnot : ¬event.IsOf state.limits groupId) :
    (servicesOf reads limits query state' store').screenDecision filter auth event =
      (servicesOf reads limits query state store).screenDecision filter auth event := by
  have hgate := h.gate_eq hdb hids hevent hnot
  unfold RelayServices.screenDecision servicesOf
  dsimp only
  rw [hgate]
  rfl

end BesideHidden

/-- The screen decides on every event that can be found. -/
theorem screenDecision_succeeds (hreached : relay.Reachable (.up (some state) store))
    (hmatches : reads.MatchesTotal) {limits : BaseRelayRequestLimits} {query : PocketQueryConfig}
    {filter : PocketFilter} (hevent : event ∈ search.findable store.events) :
    ((servicesOf reads limits query state store).screenDecision filter auth event).Succeeds := by
  obtain ⟨matched, hmatched⟩ := hmatches filter event
  obtain ⟨visible, hvisible⟩ := @exists_eventVisibleToAuth event auth state
    (class_of_findable hreached hevent)
  cases matched with
  | false => exact ⟨_, screenDecision_eq_ok.mpr (.inl ⟨hmatched, rfl⟩)⟩
  | true =>
    exact ⟨_, screenDecision_eq_ok.mpr (.inr ⟨hmatched, visible,
      Except.mapError_eq_ok.mpr hvisible, rfl⟩)⟩

/-- An event of the hidden group is no match. -/
theorem screens_ne_isMatch (hhides : state.readGate.HidesFrom groupId auth)
    {limits : BaseRelayRequestLimits} {query : PocketQueryConfig} {filter : PocketFilter}
    (hof : event.IsOf state.limits groupId) :
    (servicesOf reads limits query state store).screens filter auth event ≠ .isMatch := by
  intro hmatch
  have hgate : BaseRelay.groupReadGateVisibleToAuth (some state) event auth = .ok false :=
    Except.mapError_eq_ok.mpr (eventVisibleToAuth_of_hidden hhides hof)
  unfold RelayServices.screens at hmatch
  split at hmatch
  · next result hdecision =>
    subst hmatch
    have hvisible := (screenDecision_eq_isMatch.mp hdecision).2
    cases hgate.symm.trans hvisible
  · cases hmatch

namespace BesideHidden

variable (h : BesideHidden relay search auth groupId state store state' store')
include h

/-- The searches of both states find the same events. -/
theorem matching_perm {limits : BaseRelayRequestLimits} {query : PocketQueryConfig}
    {filter : PocketFilter} (hdb : relay.db.FindsStored) (hids : relay.db.Faithful) :
    ((search.findable store.events).filter fun event =>
        reads.eventMatches filter event = .ok true ∧
          (servicesOf reads limits query state store).screens filter auth event = .isMatch).Perm
      ((search.findable store'.events).filter fun event =>
        reads.eventMatches filter event = .ok true ∧
          (servicesOf reads limits query state' store').screens filter auth event = .isMatch) := by
  have hnodup : ∀ events, (search.findable events).Nodup := fun events =>
    List.Nodup.of_map _ (search.nodup_findable events)
  refine (List.perm_ext_iff_of_nodup ((hnodup _).filter _) ((hnodup _).filter _)).mpr fun event =>
    ?_
  simp only [List.mem_filter, decide_eq_true_eq]
  by_cases hof : event.IsOf state.limits groupId
  · have hof' : event.IsOf state'.limits groupId := h.limits.symm ▸ hof
    exact iff_of_false (fun hmatch => screens_ne_isMatch h.hides hof hmatch.2.2)
      fun hmatch => screens_ne_isMatch h.hides' hof' hmatch.2.2
  · rw [h.findable event hof]
    refine and_congr_right fun hevent => and_congr_right fun _ => ?_
    unfold RelayServices.screens
    rw [h.screenDecision_eq hdb hids hevent hof]

/-- A search goes alike in both states and finds the same events. -/
theorem queryFilterEventsReport_alike {limits : BaseRelayRequestLimits} {query : PocketQueryConfig}
    {filter : PocketFilter} {config : PocketQueryConfig} {limitMode : BaseRelayFilterLimitMode}
    (hmatches : reads.MatchesTotal) (hdb : relay.db.FindsStored) (hids : relay.db.Faithful) :
    Except.Alike (fun found found' => found.events.Perm found'.events ∧
        (found.events.map PocketEvent.id).Nodup)
      ((servicesOf reads limits query state store).queryFilterEventsReport config filter auth
        limitMode)
      ((servicesOf reads limits query state' store').queryFilterEventsReport config filter auth
        limitMode) := by
  let services := servicesOf reads limits query state store
  let services' := servicesOf reads limits query state' store'
  have hsame : services'.pocketFilterWithLimitMode filter limitMode =
      services.pocketFilterWithLimitMode filter limitMode := rfl
  cases hfilter : services.pocketFilterWithLimitMode filter limitMode with
  | error error =>
    have hfailed : services.queryFilterEventsReport config filter auth limitMode =
        .error error := by
      rw [RelayServices.queryFilterEventsReport, hfilter]
      rfl
    have hfailed' : services'.queryFilterEventsReport config filter auth limitMode =
        .error error := by
      rw [RelayServices.queryFilterEventsReport, hsame, hfilter]
      rfl
    rw [hfailed, hfailed']
    exact .error error
  | ok pocketFilter =>
    cases hrefuses : search.refusesSearch pocketFilter config with
    | some error =>
      rw [@queryFilterEventsReport_refused services search _ _ _ _ _ _ hfilter hrefuses,
        @queryFilterEventsReport_refused services' search _ _ _ _ _ _
          (hsame.trans hfilter) hrefuses]
      exact .error _
    | none =>
      obtain ⟨found, hfound, hperm, _⟩ := @queryFilterEventsReport_found services search _ _ _ _ _
        hfilter hrefuses fun event hevent => screenDecision_succeeds h.reached hmatches hevent
      obtain ⟨found', hfound', hperm', _⟩ := @queryFilterEventsReport_found services' search _ _ _ _
        _ (hsame.trans hfilter) hrefuses fun event hevent =>
          screenDecision_succeeds h.reached' hmatches hevent
      rw [hfound, hfound']
      have hmatching := @matching_perm _ _ _ _ _ _ _ _ _ h limits query pocketFilter hdb hids
      have hids' : (((search.findable store.events).filter fun event =>
          reads.eventMatches pocketFilter event = .ok true ∧
            services.screens pocketFilter auth event =
            .isMatch).map PocketEvent.id).Nodup :=
        (search.nodup_findable _).sublist (List.filter_sublist.map _)
      have hsorted := eq_of_newerFirst
        ((List.perm_insertionSort NewerFirst _).trans (hmatching.trans
          (List.perm_insertionSort NewerFirst _).symm))
        (((List.perm_insertionSort NewerFirst _).map _).nodup_iff.mpr hids')
        (List.pairwise_insertionSort _ _) (List.pairwise_insertionSort _ _)
      refine .ok ⟨hperm.trans ((List.Perm.of_eq (congrArg _ hsorted)).trans hperm'.symm), ?_⟩
      refine (hperm.map _).nodup_iff.mpr ?_
      have hall := ((List.perm_insertionSort NewerFirst _).map PocketEvent.id).nodup_iff.mpr hids'
      unfold PocketFilter.takeLimit
      split
      · exact hall
      · exact hall.sublist ((List.take_sublist _ _).map _)

end BesideHidden

/-! ## Requests -/

/-- The events of a page do not depend on the order in which they were found. -/
theorem sortAndDedupe_eq {events events' : List PocketEvent} (hperm : events.Perm events')
    (hids : (events.map PocketEvent.id).Nodup) :
    BaseRelay.sortAndDedupeQueryEvents events = BaseRelay.sortAndDedupeQueryEvents events' := by
  have hsorted : events.insertionSort NewerFirst = events'.insertionSort NewerFirst :=
    eq_of_newerFirst ((List.perm_insertionSort _ _).trans (hperm.trans
        (List.perm_insertionSort _ _).symm))
      (((List.perm_insertionSort NewerFirst _).map _).nodup_iff.mpr hids)
      (List.pairwise_insertionSort _ _) (List.pairwise_insertionSort _ _)
  exact congrArg (firstsBy PocketEvent.id ∅) hsorted

/-- A search for the filter meets an event that matches and that the gate hides. -/
def MeetsHidden (services : RelayServices) (search : PocketSearch services.reads)
    (auth : GroupAuthContext) (filter : PocketFilter) : Prop :=
  ∃ pocketFilter, services.pocketFilterWithLimitMode filter .applyDefaultLimit = .ok pocketFilter ∧
    ∃ event ∈ search.screened services.events pocketFilter services.query
      (services.screens pocketFilter auth), services.screens pocketFilter auth event = .redacted

/-- A reply whose searches have met a hidden event ends with CLOSED, any other one with EOSE. -/
structure EndsAsMet (services : RelayServices) (search : PocketSearch services.reads)
    (auth : GroupAuthContext) (subscriptionId : SubscriptionId) (filters : List PocketFilter)
    (messages : List RuntimeRelayMessage) : Prop where
  met : (∃ filter ∈ filters, MeetsHidden services search auth filter) →
    messages.getLast? = some (.relay (BaseRelay.redactedReqClosed subscriptionId auth))
  unmet : (¬∃ filter ∈ filters, MeetsHidden services search auth filter) →
    messages.getLast? = some (.relay (.eose subscriptionId))

section
variable {services : RelayServices} {search : PocketSearch services.reads} {filter : PocketFilter}
  {filters : List PocketFilter} {report report' : BaseRelayEventQueryReport}
  (hdecided : ∀ filter, ∀ event ∈ search.findable services.events,
    (services.screenDecision filter auth event).Succeeds)
include hdecided

/-- A search is denied when it meets a hidden event. -/
theorem denied_of_query (h : services.queryFilterEventsReport services.query filter auth
    .applyDefaultLimit = .ok report) :
    report.groupReadDenied = true ↔ MeetsHidden services search auth filter := by
  cases hfilter : services.pocketFilterWithLimitMode filter .applyDefaultLimit with
  | error error =>
    rw [RelayServices.queryFilterEventsReport, hfilter] at h
    cases h
  | ok pocketFilter =>
    cases hrefuses : search.refusesSearch pocketFilter services.query with
    | some error =>
      rw [queryFilterEventsReport_refused hfilter hrefuses] at h
      cases h
    | none =>
      obtain ⟨found, hfound, _, hdenied⟩ := queryFilterEventsReport_found hfilter hrefuses
        (hdecided pocketFilter)
      cases hfound.symm.trans h
      rw [hdenied, List.any_eq_true]
      refine ⟨fun ⟨event, hevent, hredacted⟩ => ⟨pocketFilter, hfilter, event, hevent,
        beq_iff_eq.mp hredacted⟩, fun ⟨other, hother, event, hevent, hredacted⟩ => ?_⟩
      cases hfilter.symm.trans hother
      exact ⟨event, hevent, beq_iff_eq.mpr hredacted⟩

/-- A request is denied when a search for one of its filters is. -/
theorem denied_of_queryFilters
    (h : filters.foldlM (services.queryNextFilter auth) report = .ok report') :
    report'.groupReadDenied = true ↔
      report.groupReadDenied = true ∨
        ∃ filter ∈ filters, MeetsHidden services search auth filter := by
  induction filters generalizing report with
  | nil =>
    cases h
    simp
  | cons filter rest ih =>
    rw [List.foldlM_cons, Except.bind_eq_ok] at h
    obtain ⟨next, hnext, h⟩ := h
    obtain ⟨found, hfound, hnext⟩ := Except.bind_eq_ok.mp hnext
    cases hnext
    rw [ih h, Bool.or_eq_true, denied_of_query hdecided hfound, List.exists_mem_cons_iff, or_assoc]

end

/-- The last message of a reply tells whether something was hidden. -/
theorem lastMessage_inj {subscriptionId : SubscriptionId} {denied denied' : Bool} :
    RelayServices.lastMessage subscriptionId auth denied =
      RelayServices.lastMessage subscriptionId auth denied' ↔ denied = denied' := by
  have hne : BaseRelay.redactedReqClosed subscriptionId auth ≠ .eose subscriptionId := by
    unfold BaseRelay.redactedReqClosed
    split <;> exact fun h => (nomatch h)
  cases denied with
  | false =>
    cases denied' with
    | false => exact iff_of_true rfl rfl
    | true =>
      exact iff_of_false (fun h => hne (RuntimeRelayMessage.relay.inj h).symm) Bool.false_ne_true
  | true =>
    cases denied' with
    | false =>
      exact iff_of_false (fun h => hne (RuntimeRelayMessage.relay.inj h)) Bool.true_eq_false.mp
    | true => exact iff_of_true rfl rfl

/-- A reply that tells whether something was hidden ends accordingly. -/
theorem endsAsMet_reply {services : RelayServices} {search : PocketSearch services.reads}
    {subscriptionId : SubscriptionId} {filters : List PocketFilter} {denied : Bool}
    {sent : List RuntimeRelayMessage}
    (h : denied = true ↔ ∃ filter ∈ filters, MeetsHidden services search auth filter) :
    EndsAsMet services search auth subscriptionId filters
      (sent ++ [RelayServices.lastMessage subscriptionId auth denied]) where
  met hmet := by
    rw [List.getLast?_concat, h.mpr hmet]
    rfl
  unmet hunmet := by
    rw [List.getLast?_concat, Bool.eq_false_iff.mpr (mt h.mp hunmet)]
    rfl

/-- The filters of a request find the same events in both states. -/
theorem BesideHidden.queryEventsReport_alike {limits : BaseRelayRequestLimits}
    {query : PocketQueryConfig} {filters : List PocketFilter}
    (h : BesideHidden relay search auth groupId state store state' store')
    (hmatches : reads.MatchesTotal) (hdb : relay.db.FindsStored) (hids : relay.db.Faithful) :
    Except.Alike (fun report report' => report.events = report'.events ∧
        (report.groupReadDenied = true ↔ ∃ filter ∈ filters,
          MeetsHidden (servicesOf reads limits query state store) search auth filter) ∧
        (report'.groupReadDenied = true ↔ ∃ filter ∈ filters,
          MeetsHidden (servicesOf reads limits query state' store') search auth filter))
      ((servicesOf reads limits query state store).queryEventsReport filters auth)
      ((servicesOf reads limits query state' store').queryEventsReport filters auth) := by
  let services := servicesOf reads limits query state store
  let services' := servicesOf reads limits query state' store'
  have hfold : Except.Alike (fun report report' => report.events = report'.events)
      (filters.foldlM (services.queryNextFilter auth) ⟨[], false, .default⟩)
      (filters.foldlM (services'.queryNextFilter auth) ⟨[], false, .default⟩) := by
    refine .foldlM rfl fun report report' filter _ hevents => ?_
    refine (h.queryFilterEventsReport_alike hmatches hdb hids).bind fun found found' hfound =>
      .ok ?_
    dsimp only
    rw [hevents, sortAndDedupe_eq hfound.1 hfound.2]
    rfl
  refine hfold.runs.bind fun report report' ⟨hrun, hrun', hevents⟩ => .ok ⟨?_, ?_, ?_⟩
  · exact congrArg BaseRelay.sortAndDedupeQueryEvents hevents
  · have hdenied := @denied_of_queryFilters auth services search _ _ _
      (fun filter event hevent => screenDecision_succeeds h.reached hmatches hevent) hrun
    exact hdenied.trans (or_iff_right Bool.false_ne_true)
  · have hdenied := @denied_of_queryFilters auth services' search _ _ _
      (fun filter event hevent => screenDecision_succeeds h.reached' hmatches hevent) hrun'
    exact hdenied.trans (or_iff_right Bool.false_ne_true)

/-- **Requests beside a hidden group.** In two states that differ only in a group that is hidden
from the reader, a request fails with the same error or is answered in both, and then with the same
events. The answers end alike, too, when the searches meet a hidden event in both states or in
neither: the last message of an answer tells whether they did. A request that asks for a search by
words is refused unsearched. -/
theorem query_besideHidden (hmatches : reads.MatchesTotal) (hdb : relay.db.FindsStored)
    (hids : relay.db.Faithful)
    (h : BesideHidden relay search auth groupId state store state' store')
    (limits : BaseRelayRequestLimits) (query : PocketQueryConfig) (subscriptionId : SubscriptionId)
    (filters : List PocketFilter) (searchPresent : Bool) :
    Except.Alike (fun report report' => delivered report.messages = delivered report'.messages ∧
        (report.messages = report'.messages ↔ (searchPresent = false →
          ((∃ filter ∈ filters,
              MeetsHidden (servicesOf reads limits query state store) search auth filter) ↔
            ∃ filter ∈ filters,
              MeetsHidden (servicesOf reads limits query state' store') search auth filter))) ∧
        (searchPresent = false →
          EndsAsMet (servicesOf reads limits query state store) search auth subscriptionId filters
              report.messages ∧
            EndsAsMet
              (servicesOf reads limits query state' store') search auth subscriptionId filters
              report'.messages))
      ((servicesOf reads limits query state store).queryReqWithGroupAuth subscriptionId filters
        searchPresent auth)
      ((servicesOf reads limits query state' store').queryReqWithGroupAuth subscriptionId filters
        searchPresent auth) := by
  unfold RelayServices.queryReqWithGroupAuth BaseRelay.unsupportedSearchPresentClosed
  refine (Except.Alike.refl (R := fun _ _ => True) fun _ _ => trivial).bind fun _ _ _ => ?_
  cases searchPresent with
  | true => exact .ok ⟨rfl, iff_of_true rfl fun h => (nomatch h), fun h => (nomatch h)⟩
  | false =>
    refine (h.queryEventsReport_alike hmatches hdb hids).bind
      fun report report' ⟨hevents, hdenied, hdenied'⟩ =>
        .ok ⟨?_, ?_, fun _ => ⟨endsAsMet_reply hdenied, endsAsMet_reply hdenied'⟩⟩
    · rw [delivered_reply, delivered_reply, hevents]
    · rw [← hdenied, ← hdenied', hevents, List.append_cancel_left_eq]
      rw [List.singleton_inj, lastMessage_inj]
      exact ⟨fun h _ => by rw [h], fun h => Bool.eq_iff_iff.mpr (h rfl)⟩

end

namespace Sample

/-- A note about farms is stored. -/
def farmNoted : List ScriptLine :=
  [.start config 100, .submit (farmNote 20) (authAs member)]

/-- A hidden group is made, a note of the group about farms is stored, and another one beside it. -/
def hiddenFarmNoted : List ScriptLine :=
  [.start config 100, .submit (farmEvent owner 9007 10 [["hidden"]]) (authAs owner),
    .submit (farmEvent owner 1 30 [["t", "farm"]]) (authAs owner),
    .submit (farmNote 20) (authAs member)]

/-- There is no group but `farm`, which is hidden from the member, and one note beside it. -/
structure NotedBesideFarm (state : GroupServiceState) (store : PocketStore) : Prop where
  limits : state.limits = config.settings.limits
  owners : state.authority.ownerPubkeys.toList = [owner]
  admins : state.authority.adminPubkeys.toList = []
  groups : ∀ entry ∈ state.projection.groups.toList,
    entry.1 = farm ∧ entry.2.metadata.hidden = true
  members : ∀ entry ∈ state.projection.members.toList, (ofLex entry.1).1 = farm
  tombstones : state.projection.tombstones.toList = []
  eventDeletions : state.projection.eventDeletions.toList = []
  unread : state.readGate.canReadGroup farm (some member) = false
  notes : ((plainFindable store.events).filter fun event => ¬event.IsOf state.limits farm) =
    [farmNote 20]

instance (state : GroupServiceState) (store : PocketStore) :
    Decidable (NotedBesideFarm state store) :=
  decidable_of_iff (_ ∧ _ ∧ _ ∧ _ ∧ _ ∧ _ ∧ _ ∧ _ ∧ _)
    ⟨fun ⟨h1, h2, h3, h4, h5, h6, h7, h8, h9⟩ => ⟨h1, h2, h3, h4, h5, h6, h7, h8, h9⟩,
      fun ⟨h1, h2, h3, h4, h5, h6, h7, h8, h9⟩ => ⟨h1, h2, h3, h4, h5, h6, h7, h8, h9⟩⟩

/-- What a request is answered from. -/
def farmServices (state : GroupServiceState) (store : PocketStore) : RelayServices :=
  servicesOf plainReads ⟨64, 10, 100, 1000, 500, 100⟩ ⟨false, 100, 3600⟩ state store

/-- The reply to a member who asks for the notes about farms. -/
def farmNotesSent (state : GroupServiceState) (store : PocketStore) :
    Except BaseRelayError (List RuntimeRelayMessage) :=
  BaseRelayQueryReport.messages <$> (farmServices state store).queryReqWithGroupAuth feed
    [{ farmNotes with limit := 10 }] false (authAs member)

theorem plainReads_matchesTotal : plainReads.MatchesTotal :=
  fun _ _ => ⟨_, rfl⟩

section
variable {state state' : GroupServiceState} {store store' : PocketStore}

/-- Two places where there is no group but `farm`, and the same note beside it. -/
theorem besideHidden_of_noted (hreached : relay.Reachable (.up (some state) store))
    (hreached' : relay.Reachable (.up (some state') store')) (h : NotedBesideFarm state store)
    (h' : NotedBesideFarm state' store') :
    BesideHidden relay plainSearch (authAs member) farm state store state' store' := by
  have hgroup : ∀ {state store}, NotedBesideFarm state store → ∀ id, id ≠ farm →
      state.projection.group id = none := by
    intro state store h id hid
    refine Option.eq_none_iff_forall_ne_some.mpr fun group hfound => hid ?_
    exact (h.groups (id, group) (BTreeMap.mem_toList.mpr hfound)).1
  have hmember : ∀ {state store}, NotedBesideFarm state store → ∀ id pubkey, id ≠ farm →
      state.projection.member id pubkey = none := by
    intro state store h id pubkey hid
    refine Option.eq_none_iff_forall_ne_some.mpr fun found hfound => hid ?_
    exact h.members (toLex (id, pubkey), found) (BTreeMap.mem_toList.mpr hfound)
  have hnone : ∀ {κ ν : Type} [LinearOrder κ] {m : BTreeMap κ ν} (k : κ), m.toList = [] →
      m[k]? = none := by
    intro κ ν _ m k hempty
    refine Option.eq_none_iff_forall_ne_some.mpr fun found hfound => ?_
    exact List.not_mem_nil (hempty ▸ BTreeMap.mem_toList.mpr hfound)
  have hset : ∀ {s s' : BTreeSet PublicKeyHex}, s.toList = s'.toList → s = s' := fun heq =>
    BTreeSet.ext fun pubkey => by rw [← BTreeSet.mem_toList, heq, BTreeSet.mem_toList]
  have hhides : ∀ {state store}, NotedBesideFarm state store →
      state.readGate.HidesFrom farm (authAs member) := by
    intro state store h
    refine ⟨fun group hfound => (h.groups _ (BTreeMap.mem_toList.mpr hfound)).2, ?_⟩
    intro pubkey hpubkey
    cases List.mem_singleton.mp (BTreeSet.mem_ofList.mp hpubkey)
    exact h.unread
  have hfindable : ∀ {state store} {event : PocketEvent}, NotedBesideFarm state store →
      ¬event.IsOf state.limits farm →
        (event ∈ plainFindable store.events ↔ event ∈ [farmNote 20]) := by
    intro state store event h hnot
    rw [← h.notes, List.mem_filter, decide_eq_true hnot]
    exact (and_iff_left rfl).symm
  have hlimits := h'.limits.trans h.limits.symm
  exact
    { limits := hlimits
      authority := by
        have howners := hset (h'.owners.trans h.owners.symm)
        have hadmins := hset (h'.admins.trans h.admins.symm)
        cases hauthority : state.authority
        cases hauthority' : state'.authority
        rw [hauthority, hauthority'] at howners hadmins
        rw [GroupAuthority.mk.injEq]
        exact ⟨howners, hadmins⟩
      group := fun id hid => (hgroup h' id hid).trans (hgroup h id hid).symm
      member := fun id pubkey hid => (hmember h' id pubkey hid).trans (hmember h id pubkey hid).symm
      tombstone := fun id _ => (hnone id h'.tombstones).trans (hnone id h.tombstones).symm
      eventDeletion := fun id deletion _ => by
        have hnothing := (hnone id h'.eventDeletions).trans (hnone id h.eventDeletions).symm
        rw [GroupProjection.eventDeletion, hnothing]
        rfl
      findable := fun event hnot =>
        (hfindable h' (hlimits ▸ hnot)).trans (hfindable h hnot).symm
      reached := hreached
      reached' := hreached'
      hides := hhides h
      hides' := hhides h' }

end

end Sample

section
open Sample

/-- A member who asks for the notes about farms is told that a group is unavailable when the search
has met a hidden note, and that there are no more notes when it has met none. -/
theorem reply_tells_of_hidden : ∃ state store state' store' report report',
    BesideHidden relay plainSearch (authAs member) farm state store state' store' ∧
      (farmServices state store).queryReqWithGroupAuth feed [{ farmNotes with limit := 10 }] false
        (authAs member) = .ok report ∧
      (farmServices state' store').queryReqWithGroupAuth feed [{ farmNotes with limit := 10 }] false
        (authAs member) = .ok report' ∧
      report.messages = [.event feed (farmNote 20), .relay (.eose feed)] ∧
      report'.messages = [.event feed (farmNote 20),
        .relay (.closed feed "restricted: group is unavailable")] := by
  have hscript : relay.ScriptEnds (fun _ _ => true) farmNoted fun state store =>
      NotedBesideFarm state store ∧
        farmNotesSent state store = .ok [.event feed (farmNote 20), .relay (.eose feed)] := by
    decide +kernel
  have hscript' : relay.ScriptEnds (fun _ _ => true) hiddenFarmNoted fun state store =>
      NotedBesideFarm state store ∧ farmNotesSent state store = .ok [.event feed (farmNote 20),
        .relay (.closed feed "restricted: group is unavailable")] := by
    decide +kernel
  obtain ⟨state, store, hreaches, hnoted, hsent⟩ := hscript.reaches
  obtain ⟨state', store', hreaches', hnoted', hsent'⟩ := hscript'.reaches
  obtain ⟨report, hreport, hmessages⟩ := Except.map_eq_ok.mp hsent
  obtain ⟨report', hreport', hmessages'⟩ := Except.map_eq_ok.mp hsent'
  have hbeside := besideHidden_of_noted (hreaches.mono fun _ _ _ => trivial)
    (hreaches'.mono fun _ _ _ => trivial) hnoted hnoted'
  exact ⟨state, store, state', store', report, report', hbeside, hreport, hreport', hmessages,
    hmessages'⟩

/-- The theorem at two stores of which one holds a hidden group's note beside the visible one: both
replies bring the visible note, and each ends as what its search has met says. -/
theorem query_besideHidden_farmNoted : ∃ state store state' store',
    BesideHidden relay plainSearch (authAs member) farm state store state' store' ∧
      Except.Alike (fun report report' => delivered report.messages = delivered report'.messages ∧
        (report.messages = report'.messages ↔ (false = false →
          ((∃ filter ∈ [{ farmNotes with limit := 10 }],
              MeetsHidden (farmServices state store) plainSearch (authAs member) filter) ↔
            ∃ filter ∈ [{ farmNotes with limit := 10 }],
              MeetsHidden (farmServices state' store') plainSearch (authAs member) filter))) ∧
        (false = false →
          EndsAsMet (farmServices state store) plainSearch (authAs member) feed
              [{ farmNotes with limit := 10 }] report.messages ∧
            EndsAsMet (farmServices state' store') plainSearch (authAs member) feed
              [{ farmNotes with limit := 10 }] report'.messages))
        ((farmServices state store).queryReqWithGroupAuth feed [{ farmNotes with limit :=
          10 }] false
          (authAs member))
        ((farmServices state' store').queryReqWithGroupAuth feed [{ farmNotes with limit :=
          10 }] false
          (authAs member)) := by
  have hscript : relay.ScriptEnds (fun _ _ => true) farmNoted NotedBesideFarm := by
    decide +kernel
  have hscript' : relay.ScriptEnds (fun _ _ => true) hiddenFarmNoted NotedBesideFarm := by
    decide +kernel
  obtain ⟨state, store, hreaches, hnoted⟩ := hscript.reaches
  obtain ⟨state', store', hreaches', hnoted'⟩ := hscript'.reaches
  have hbeside := besideHidden_of_noted (hreaches.mono fun _ _ _ => trivial)
    (hreaches'.mono fun _ _ _ => trivial) hnoted hnoted'
  exact ⟨state, store, state', store', hbeside, query_besideHidden plainReads_matchesTotal
    plainDb_findsStored plainDb_faithful hbeside _ _ feed _ false⟩

end

end Tangle
