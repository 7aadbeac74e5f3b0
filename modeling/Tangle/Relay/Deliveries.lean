import Mathlib.Data.List.ReduceOption
import Tangle.Lib.Returns
import Tangle.Relay.PlainReads
import Tangle.Relay.Projections
import Tangle.Runtime.Script

/-!
# Every delivery passes the read gate

Events reach a client in the reply to a request, which is searched before or after the hooks make
their changes, and when an event is stored, which may bring further stored events with it. On each
of these ways an event is screened by the read gate and matched with the filters of the subscription
it is sent to, also when the hooks have put it in the place of another, and no subscription gets
an event twice in one reply (`delivers_only_visible`).
-/

namespace Tangle

section
variable {σ : Type} {relay : RelayDeliveries σ} {services : RelayServices} {auth : GroupAuthContext}
  {event : PocketEvent} {filters : List PocketFilter} {subscriptionId : SubscriptionId}
  {projection : RelayProjectionContext}

/-! ## Visible events -/

/-- The read gate of the service, if there is one, shows the event to one of the keys that the
session has authenticated, or to the anonymous reader when there is none. -/
def VisibleTo (groups : Option GroupServiceState) (auth : GroupAuthContext) (event : PocketEvent) :
    Prop :=
  ∀ state, groups = some state →
    ∃ reader, state.readGate.screenEvent event reader state.limits = .ok .visible ∧
      ((reader = none ∧ auth.authenticatedPubkeys.isEmpty = true) ∨
        ∃ pubkey ∈ auth.authenticatedPubkeys, reader = some pubkey)

/-- What is visible to some of the keys is visible to one of them. -/
theorem GroupServiceState.exists_of_visibleToAny {state : GroupServiceState}
    {pubkeys : List PublicKeyHex} (h : state.visibleToAny event pubkeys = .ok true) :
    ∃ pubkey ∈ pubkeys,
      state.readGate.screenEvent event (some pubkey) state.limits = .ok .visible := by
  induction pubkeys with
  | nil => cases h
  | cons pubkey rest ih =>
    rw [visibleToAny, Except.bind_eq_ok] at h
    obtain ⟨decision, hscreen, h⟩ := h
    split at h
    · next hvisible => exact ⟨pubkey, List.mem_cons_self .., hvisible ▸ hscreen⟩
    · obtain ⟨other, hother, hvisible⟩ := ih h
      exact ⟨other, List.mem_cons_of_mem _ hother, hvisible⟩

/-- What passes the gate of the service is visible. -/
theorem visibleTo_of_gate {groups : Option GroupServiceState}
    (h : BaseRelay.groupReadGateVisibleToAuth groups event auth = .ok true) :
    VisibleTo groups auth event := by
  intro state hgroups
  subst hgroups
  have hvisible : state.eventVisibleToAuth event auth = .ok true := Except.mapError_eq_ok.mp h
  unfold GroupServiceState.eventVisibleToAuth at hvisible
  split at hvisible
  · next hempty =>
    obtain ⟨decision, hscreen, hdecision⟩ := Except.bind_eq_ok.mp hvisible
    have hdecision : decide (decision = .visible) = true := Except.ok.inj hdecision
    exact ⟨none, of_decide_eq_true hdecision ▸ hscreen, .inl ⟨rfl, hempty⟩⟩
  · obtain ⟨pubkey, hpubkey, hscreen⟩ := GroupServiceState.exists_of_visibleToAny hvisible
    exact ⟨some pubkey, hscreen, .inr ⟨pubkey, BTreeSet.mem_toList.mp hpubkey, rfl⟩⟩

/-! ## Searches -/

/-- A candidate that the screen calls a match has passed the gate. -/
theorem visible_of_isMatch {filter : PocketFilter} {t t' : ScreenCells}
    (h : (services.screenPocketEvent filter auth event).run t = (.isMatch, t')) :
    VisibleTo services.groups auth event := by
  have hfst := congrArg Prod.fst h
  unfold RelayServices.screenPocketEvent at hfst
  simp only [StateT.run_bind, StateT.run_modify, StateT.run_get, pure_bind] at hfst
  split at hfst
  · cases hfst
  · cases hmatches : services.reads.eventMatches filter event with
    | error e =>
      rw [hmatches] at hfst
      cases hfst
    | ok matched =>
      rw [hmatches] at hfst
      cases matched with
      | false => cases hfst
      | true =>
        cases hgate : BaseRelay.groupReadGateVisibleToAuth services.groups event auth with
        | error e =>
          dsimp only at hfst
          rw [hgate] at hfst
          cases hfst
        | ok visible =>
          dsimp only at hfst
          rw [hgate] at hfst
          cases visible with
          | false => cases hfst
          | true => exact visibleTo_of_gate hgate

/-- What a search returns is visible. -/
theorem visible_of_query (hreads : services.reads.ReturnsMatches) {query : PocketQueryConfig}
    {filter : PocketFilter} {limitMode : BaseRelayFilterLimitMode}
    {report : BaseRelayEventQueryReport}
    (h : services.queryFilterEventsReport query filter auth limitMode = .ok report) :
    ∀ event ∈ report.events, VisibleTo services.groups auth event := by
  unfold RelayServices.queryFilterEventsReport at h
  obtain ⟨pocketFilter, hfilter, h⟩ := Except.bind_eq_ok.mp h
  obtain ⟨screened, hfound, h⟩ := Except.bind_eq_ok.mp h
  split at h
  · cases h
  · cases h
    intro event hevent
    have hrun : (services.reads.findEvents services.events pocketFilter query
        (services.screenPocketEvent pocketFilter auth)).run .new = (.ok screened, _) :=
      Prod.ext (Except.mapError_eq_ok.mp hfound) rfl
    obtain ⟨t, t', hmatch⟩ := hreads _ _ _ _ _ _ _ hrun event hevent
    exact visible_of_isMatch hmatch

/-- Sorting and dropping duplicates adds no event. -/
theorem mem_of_mem_sortAndDedupe {events : List PocketEvent}
    (h : event ∈ BaseRelay.sortAndDedupeQueryEvents events) : event ∈ events :=
  (List.mem_insertionSort _).mp (mem_of_mem_firstsBy h)

/-- No two events that are left have one id. -/
theorem nodup_sortAndDedupe {events : List PocketEvent} :
    ((BaseRelay.sortAndDedupeQueryEvents events).map PocketEvent.id).Nodup :=
  nodup_keys_firstsBy

/-! ## Filters that match -/

/-- The event may be sent: it is visible, and it matches a filter that was asked for. -/
structure Sendable (services : RelayServices) (auth : GroupAuthContext)
    (asked : PocketFilter → Prop) (event : PocketEvent) : Prop where
  visible : VisibleTo services.groups auth event
  matching : ∃ filter, asked filter ∧ services.reads.eventMatches filter event = .ok true

/-- The filters were asked for, and the event matches them. -/
def MatchedBy (services : RelayServices) (asked : PocketFilter → Prop) (event : PocketEvent)
    (matchedFilters : List MatchedFilter) : Prop :=
  ∀ matched ∈ matchedFilters,
    asked matched.2 ∧ services.reads.eventMatches matched.2 event = .ok true

/-- The filters found to match are among those tried, and each matches the event. -/
theorem matchedBy_of_filtersMatchedFrom {filterIndex : Nat} {matchedFilters : List MatchedFilter}
    (h : services.filtersMatchedFrom event filterIndex filters = .ok matchedFilters) :
    MatchedBy services (· ∈ filters) event matchedFilters := by
  induction filters generalizing filterIndex matchedFilters with
  | nil =>
    cases h
    exact fun matched hmatched => (nomatch hmatched)
  | cons filter rest ih =>
    rw [RelayServices.filtersMatchedFrom, Except.bind_eq_ok] at h
    obtain ⟨does, hmatches, h⟩ := h
    obtain ⟨others, hothers, h⟩ := Except.bind_eq_ok.mp h
    have hrest : MatchedBy services (· ∈ filter :: rest) event others := fun matched hmatched =>
      ⟨List.mem_cons_of_mem _ (ih hothers matched hmatched).1, (ih hothers matched hmatched).2⟩
    cases does with
    | false =>
      cases h
      exact hrest
    | true =>
      cases h
      intro matched hmatched
      rcases List.mem_cons.mp hmatched with rfl | hmatched
      · exact ⟨List.mem_cons_self .., Except.mapError_eq_ok.mp hmatches⟩
      · exact hrest matched hmatched

/-- The filters found for an event match it, and there is one at least. -/
theorem matchedBy_of_matchedFilters {matchedFilters : List MatchedFilter}
    (h : services.matchedFiltersForEvent filters event = .ok matchedFilters) :
    MatchedBy services (· ∈ filters) event matchedFilters ∧ matchedFilters ≠ [] := by
  obtain ⟨found, hfound, h⟩ := Except.bind_eq_ok.mp h
  split at h
  · cases h
  · next hsome =>
    cases h
    exact ⟨matchedBy_of_filtersMatchedFrom hfound, fun hnil => hsome (hnil ▸ rfl)⟩

/-- Where some filter matches, there is one of the list that does. -/
theorem exists_of_matchesAny {matchedFilters : List MatchedFilter}
    (h : services.matchesAny event matchedFilters = .ok true) :
    ∃ matched ∈ matchedFilters, services.reads.eventMatches matched.2 event = .ok true := by
  induction matchedFilters with
  | nil => cases h
  | cons matched rest ih =>
    rw [RelayServices.matchesAny, Except.bind_eq_ok] at h
    obtain ⟨does, hmatches, h⟩ := h
    cases does with
    | true => exact ⟨matched, List.mem_cons_self .., Except.mapError_eq_ok.mp hmatches⟩
    | false =>
      obtain ⟨other, hother, hdoes⟩ := ih h
      exact ⟨other, List.mem_cons_of_mem _ hother, hdoes⟩

/-- **Whatever the hooks decide**, what is made of a visible event may be sent. -/
theorem returns_projectEventOutput {request : RelayEventProjectionRequest}
    {asked : PocketFilter → Prop} (hvisible : VisibleTo relay.groups request.auth request.event)
    (hmatched : MatchedBy relay asked request.event request.matchedFilters)
    (hsome : request.matchedFilters ≠ []) :
    Returns (relay.projectEventOutput request) fun projected =>
      ∀ event ∈ projected, Sendable relay request.auth asked event := by
  obtain ⟨first, hfirst⟩ := List.exists_mem_of_ne_nil _ hsome
  unfold RelayDeliveries.projectEventOutput
  refine .bind (Q := fun _ => True) (.liftM fun _ _ => trivial) fun context _ => ?_
  refine .bind (Q := fun _ => True) (fun _ _ _ _ => trivial) fun decision _ => ?_
  cases decision with
  | emit =>
    refine .pure fun event hevent => ?_
    cases hevent
    exact ⟨hvisible, first.2, hmatched first hfirst⟩
  | suppress => exact .pure fun event hevent => (nomatch hevent)
  | replaceWithStoredOffset storeOffset =>
    dsimp only
    split
    · exact .pure fun event hevent => (nomatch hevent)
    · next replacement _ =>
      refine .bind (.liftM fun visible hgate => hgate) fun visible hgate => ?_
      cases visible with
      | false => exact .pure fun event hevent => (nomatch hevent)
      | true =>
        refine .bind (.liftM fun matched hmatches => hmatches) fun matched hmatches => .pure ?_
        cases matched with
        | false => exact fun event hevent => (nomatch hevent)
        | true =>
          intro event hevent
          cases hevent
          obtain ⟨other, hother, hdoes⟩ := exists_of_matchesAny hmatches
          exact ⟨visibleTo_of_gate hgate, other.2, (hmatched other hother).1, hdoes⟩

/-- What is made of an event that a query has found. -/
theorem returns_projectFoundEvent (hvisible : VisibleTo relay.groups auth event) :
    Returns (relay.projectFoundEvent subscriptionId filters projection auth event) fun projected =>
      ∀ event ∈ projected, Sendable relay auth (· ∈ filters) event := by
  refine .bind (.liftM fun matchedFilters hmatched => hmatched) fun matchedFilters hmatched => ?_
  obtain ⟨hby, hsome⟩ := matchedBy_of_matchedFilters hmatched
  exact returns_projectEventOutput hvisible hby hsome

/-! ## Replies -/

/-- The messages send what may be sent to each subscription, and nothing twice. -/
structure Delivers (services : RelayServices) (auth : GroupAuthContext)
    (asked : SubscriptionId → PocketFilter → Prop) (messages : List RuntimeRelayMessage) :
    Prop where
  sendable : ∀ sent ∈ delivered messages, Sendable services auth (asked sent.1) sent.2
  once : ((delivered messages).map fun sent => (sent.1, sent.2.id)).Nodup

/-- No message delivers nothing. -/
@[simp] theorem delivered_nil : delivered [] = [] := rfl

/-- An event of a subscription is delivered to it. -/
@[simp] theorem delivered_event {messages : List RuntimeRelayMessage} :
    delivered (.event subscriptionId event :: messages) =
      (subscriptionId, event) :: delivered messages := rfl

/-- A message of the relay delivers no event. -/
@[simp] theorem delivered_relay {message : RelayMessage} {messages : List RuntimeRelayMessage} :
    delivered (.relay message :: messages) = delivered messages := rfl

/-- What two lists of messages deliver is what the first delivers and then the second. -/
theorem delivered_append {messages more : List RuntimeRelayMessage} :
    delivered (messages ++ more) = delivered messages ++ delivered more :=
  List.filterMap_append

/-- Events under one subscription are all delivered to it. -/
theorem delivered_map_event {events : List PocketEvent} :
    delivered (events.map (.event subscriptionId)) = events.map fun event =>
      (subscriptionId, event) := by
  induction events with
  | nil => rfl
  | cons event rest ih => rw [List.map_cons, delivered_event, ih, List.map_cons]

/-- The last message of a query is a message of the relay. -/
theorem exists_lastMessage (subscriptionId : SubscriptionId) (auth : GroupAuthContext)
    (denied : Bool) : ∃ last, RelayServices.lastMessage subscriptionId auth denied =
      .relay last := by
  unfold RelayServices.lastMessage
  split
  · exact ⟨_, rfl⟩
  · exact ⟨_, rfl⟩

/-- The last message of a query delivers no event. -/
theorem delivered_lastMessage {groupReadDenied : Bool} :
    delivered [RelayServices.lastMessage subscriptionId auth groupReadDenied] = [] := by
  cases groupReadDenied <;> rfl

/-- The reply of a query sends its events. -/
theorem delivered_reply {events : List PocketEvent} {groupReadDenied : Bool} :
    delivered (events.map (.event subscriptionId) ++
        [RelayServices.lastMessage subscriptionId auth groupReadDenied]) =
      events.map fun event => (subscriptionId, event) := by
  rw [delivered_append, delivered_map_event, delivered_lastMessage, List.append_nil]

/-- What a request asks for. -/
def AskedBy (subscriptionId : SubscriptionId) (filters : List PocketFilter)
    (id : SubscriptionId) (filter : PocketFilter) : Prop :=
  id = subscriptionId ∧ filter ∈ filters

/-- What may be sent for a filter was asked for by the subscription that holds the filter. -/
theorem Sendable.askedBy (h : Sendable services auth (· ∈ filters) event) :
    Sendable services auth (AskedBy subscriptionId filters subscriptionId) event := by
  obtain ⟨hvisible, filter, hfilter, hmatches⟩ := h
  exact ⟨hvisible, filter, ⟨rfl, hfilter⟩, hmatches⟩

/-- The reply to a request, before the hooks make their changes: visible events. -/
theorem visible_of_queryReq (hreads : services.reads.ReturnsMatches) {searchPresent : Bool}
    {report : BaseRelayQueryReport}
    (h : services.queryReqWithGroupAuth subscriptionId filters searchPresent auth = .ok report) :
    ∀ sent ∈ delivered report.messages,
      sent.1 = subscriptionId ∧ VisibleTo services.groups auth sent.2 := by
  obtain ⟨_, hvalid, h⟩ := Except.bind_eq_ok.mp h
  split at h
  · cases h
    exact fun sent hsent => (nomatch hsent)
  obtain ⟨found, hfound, h⟩ := Except.bind_eq_ok.mp h
  cases h
  obtain ⟨gathered, hgathered, hevents⟩ := Except.bind_eq_ok.mp hfound
  cases hevents
  have hvisible : ∀ event ∈ gathered.events, VisibleTo services.groups auth event := by
    refine Except.foldlM_invariant (fun report : BaseRelayEventQueryReport =>
      ∀ event ∈ report.events, VisibleTo services.groups auth event)
      (fun report filter next hfilter hbefore hnext => ?_)
        (fun _ hevent => absurd hevent List.not_mem_nil)
      hgathered
    obtain ⟨found, hquery, hnext⟩ := Except.bind_eq_ok.mp hnext
    cases hnext
    intro event hevent
    rcases List.mem_append.mp hevent with hevent | hevent
    · exact hbefore event hevent
    · exact visible_of_query hreads hquery event
        (mem_of_mem_sortAndDedupe (List.mem_of_mem_take hevent))
  rw [delivered_reply]
  intro sent hsent
  obtain ⟨event, hevent, rfl⟩ := List.mem_map.mp hsent
  exact ⟨rfl, hvisible event (mem_of_mem_sortAndDedupe hevent)⟩

/-- The hooks' changes to the messages of a reply. -/
theorem returns_projectRuntimeMessages {eventIds : BTreeSet EventId}
    {messages : List RuntimeRelayMessage}
    (hvisible : ∀ sent ∈ delivered messages,
      sent.1 = subscriptionId ∧ VisibleTo relay.groups auth sent.2) :
    Returns (relay.projectRuntimeMessages filters projection auth eventIds messages)
      fun projected =>
      Delivers relay auth (AskedBy subscriptionId filters) projected ∧
        ∀ sent ∈ delivered projected, sent.2.id ∉ eventIds := by
  induction messages generalizing eventIds with
  | nil =>
    exact .pure ⟨⟨fun _ hsent => absurd hsent List.not_mem_nil, .nil⟩,
      fun _ hsent => absurd hsent List.not_mem_nil⟩
  | cons message rest ih =>
    cases message with
    | relay message =>
      refine .bind (ih hvisible) fun others hothers => .pure ?_
      exact ⟨⟨hothers.1.sendable, hothers.1.once⟩, hothers.2⟩
    | event id event =>
      obtain ⟨rfl, hevent⟩ := hvisible (id, event) (List.mem_cons_self ..)
      have hrest := fun sent hsent => hvisible sent (List.mem_cons_of_mem _ hsent)
      refine .bind (returns_projectFoundEvent hevent) fun projected hprojected => ?_
      cases projected with
      | none => exact ih hrest
      | some projected =>
        dsimp only
        split
        · exact ih hrest
        · next hnew =>
          refine .bind (ih hrest) fun others hboth => .pure ?_
          obtain ⟨hdelivers, hothers⟩ := hboth
          refine ⟨⟨?_, ?_⟩, ?_⟩
          · intro sent hsent
            rcases List.mem_cons.mp hsent with rfl | hsent
            · exact (hprojected projected rfl).askedBy
            · exact hdelivers.sendable sent hsent
          · rw [delivered_event, List.map_cons, List.nodup_cons]
            refine ⟨fun hmem => ?_, hdelivers.once⟩
            obtain ⟨sent, hsent, heq⟩ := List.mem_map.mp hmem
            obtain ⟨_, heq⟩ := Prod.mk.inj heq
            exact hothers sent hsent (BTreeSet.mem_insert.mpr (.inl heq.symm))
          · intro sent hsent
            rcases List.mem_cons.mp hsent with rfl | hsent
            · exact hnew
            · exact fun hseen => hothers sent hsent (BTreeSet.mem_insert.mpr (.inr hseen))

/-- The reply to a request that is searched before the hooks make their changes. -/
theorem returns_projectQueryReport {report : BaseRelayQueryReport}
    (hvisible : ∀ sent ∈ delivered report.messages,
      sent.1 = subscriptionId ∧ VisibleTo relay.groups auth sent.2) :
    Returns (relay.projectQueryReport report filters projection auth) fun projected =>
      Delivers relay auth (AskedBy subscriptionId filters) projected.messages :=
  .bind (returns_projectRuntimeMessages hvisible) fun _ hmessages => .pure hmessages.1

/-- One filter's events, searched further so that the hooks may change them. -/
theorem returns_queryNextProjectedFilter (hreads : relay.reads.ReturnsMatches)
    {candidateLimit : UInt32} {report : BaseRelayEventQueryReport} {filter : PocketFilter}
    (h : ∀ event ∈ report.events, Sendable relay auth (· ∈ filters) event) :
    Returns (relay.queryNextProjectedFilter subscriptionId filters auth projection candidateLimit
      report filter) fun next => ∀ event ∈ next.events,
        Sendable relay auth (· ∈ filters) event := by
  refine .bind (.liftM fun found hfound => visible_of_query hreads hfound) fun found hfound => ?_
  refine .bind (Returns.mapM fun event hevent =>
    returns_projectFoundEvent (hfound event (mem_of_mem_sortAndDedupe hevent)))
    fun projected hprojected => .pure ?_
  intro event hevent
  rcases List.mem_append.mp hevent with hevent | hevent
  · exact h event hevent
  · have hkept := mem_of_mem_sortAndDedupe (List.mem_of_mem_take hevent)
    exact hprojected (some event) (List.reduceOption_mem_iff.mp hkept) event rfl

/-- The reply to a request that is searched further. -/
theorem returns_queryProjectedReq (hreads : relay.reads.ReturnsMatches) {searchPresent : Bool}
    {candidateLimit : UInt32} :
    Returns (relay.queryProjectedReq subscriptionId filters searchPresent auth projection
      candidateLimit) fun report =>
        Delivers relay auth (AskedBy subscriptionId filters) report.messages := by
  refine .bind (Q := fun _ => True) (.liftM fun _ _ => trivial) fun _ _ => ?_
  dsimp only
  split
  · exact .pure ⟨fun _ hsent => (nomatch hsent), .nil⟩
  refine .bind (Returns.foldlM (P := fun report : BaseRelayEventQueryReport =>
    ∀ event ∈ report.events, Sendable relay auth (· ∈ filters) event)
    (fun _ hevent => (nomatch hevent)) fun report filter _ hreport =>
      returns_queryNextProjectedFilter hreads hreport) fun report hreport => .pure ⟨?_, ?_⟩
  · rw [delivered_reply]
    intro sent hsent
    obtain ⟨event, hevent, rfl⟩ := List.mem_map.mp hsent
    exact (hreport event (mem_of_mem_sortAndDedupe hevent)).askedBy
  · rw [delivered_reply, List.map_map]
    have hids : ((BaseRelay.sortAndDedupeQueryEvents report.events).map PocketEvent.id).Nodup :=
      nodup_sortAndDedupe
    refine List.Nodup.of_map Prod.snd ?_
    rw [List.map_map]
    exact hids

/-- **A reply sends only what may be sent**, and nothing twice. -/
theorem returns_queryReq (hreads : relay.reads.ReturnsMatches) {searchPresent : Bool} :
    Returns (relay.queryReqWithProjectionContext subscriptionId filters searchPresent auth
      projection) fun report =>
        Delivers relay auth (AskedBy subscriptionId filters) report.messages := by
  refine .bind (Q := fun _ => True) (fun _ _ _ _ => trivial) fun plan _ => ?_
  cases plan with
  | beforeProjection =>
    exact .bind (.liftM fun report hreport => visible_of_queryReq hreads hreport)
      fun report hvisible => returns_projectQueryReport hvisible
  | afterProjection candidateLimit => exact returns_queryProjectedReq hreads

/-! ## Live deliveries -/

/-- What a live subscription asks for. -/
def AskedLive (subscriptions : LiveSubscriptionSet) (id : SubscriptionId) (filter : PocketFilter) :
    Prop :=
  ∃ filters, subscriptions.subscriptions[id]? = some filters ∧ filter ∈ filters

/-- The subscription gets the event: it is visible and matches filters of the subscription. -/
def MayGet (services : RelayServices) (auth : GroupAuthContext)
    (subscriptions : LiveSubscriptionSet)
    (event : PocketEvent) (matched : LiveSubscriptionMatch) : Prop :=
  VisibleTo services.groups auth event ∧
    MatchedBy services (AskedLive subscriptions matched.subscriptionId) event
      matched.matchedFilters ∧
    matched.matchedFilters ≠ []

/-- **A fan-out only matches what the reader may get**: each match names a subscription of the set,
with a filter that the event matches, and the gate lets the event through. -/
theorem mayGet_of_fanout {subscriptions : LiveSubscriptionSet}
    {matches' : List LiveSubscriptionMatch}
    (h : services.fanout subscriptions event auth = .ok matches') :
    ∀ matched ∈ matches', MayGet services auth subscriptions event matched := by
  have hfrom : ∀ (entries : List (SubscriptionId × List PocketFilter)) matches',
      (∀ entry ∈ entries, subscriptions.subscriptions[entry.1]? = some entry.2) →
      services.fanoutFrom event auth entries = .ok matches' →
      ∀ matched ∈ matches', MayGet services auth subscriptions event matched := by
    intro entries
    induction entries with
    | nil =>
      intro matches' _ h
      cases h
      exact fun matched hmatched => (nomatch hmatched)
    | cons entry rest ih =>
      intro matches' hentries h
      obtain ⟨subscriptionId, filters⟩ := entry
      rw [RelayServices.fanoutFrom, Except.bind_eq_ok] at h
      obtain ⟨matchedFilters, hfilters, h⟩ := h
      obtain ⟨others, hothers, h⟩ := Except.bind_eq_ok.mp h
      have hrest := ih others (fun entry hentry => hentries entry (List.mem_cons_of_mem _ hentry))
        hothers
      have hheld := hentries _ (List.mem_cons_self ..)
      cases h
      split
      · exact hrest
      · next hsome =>
        split
        · next hlive =>
          intro matched hmatched
          rcases List.mem_cons.mp hmatched with rfl | hmatched
          · refine ⟨?_, fun one hone => ?_, fun hnil => hsome (List.isEmpty_iff.mpr hnil)⟩
            · unfold RelayServices.visibleToLive at hlive
              split at hlive
              · next visible hgate => exact visibleTo_of_gate (hlive ▸ hgate)
              · cases hlive
            · obtain ⟨hone, hmatches⟩ := matchedBy_of_filtersMatchedFrom hfilters one hone
              exact ⟨⟨filters, hheld, hone⟩, hmatches⟩
          · exact hrest matched hmatched
        · exact hrest
  exact hfrom _ _ (fun entry hentry => BTreeMap.mem_toList.mp hentry) h

/-- The messages so far send only what may be sent, and the pairs noted are those sent. -/
structure Delivering (services : RelayServices) (auth : GroupAuthContext)
    (subscriptions : LiveSubscriptionSet) (delivery : RelayLiveProjectionDelivery) : Prop where
  delivers : Delivers services auth (AskedLive subscriptions) delivery.messages
  noted : ∀ sent ∈ delivered delivery.messages, (sent.1, sent.2.id) ∈ delivery.delivered

/-- Delivering one match sends the event to a subscription that may get it. -/
theorem returns_deliverMatch {subscriptions : LiveSubscriptionSet} {storeOffset : StoreOffset}
    {delivery : RelayLiveProjectionDelivery} {matched : LiveSubscriptionMatch}
    (h : Delivering relay auth subscriptions delivery)
    (hmay : MayGet relay auth subscriptions event matched) :
    Returns (relay.deliverMatch event storeOffset auth projection delivery matched)
      (Delivering relay auth subscriptions) := by
  obtain ⟨hvisible, hmatched, hsome⟩ := hmay
  refine .bind (returns_projectEventOutput hvisible hmatched hsome) fun projected hprojected => ?_
  cases projected with
  | none => exact .pure h
  | some projected =>
    dsimp only
    split
    · exact .pure h
    · next hnew =>
      refine .pure ⟨⟨?_, ?_⟩, ?_⟩
      · intro sent hsent
        rw [delivered_append] at hsent
        rcases List.mem_append.mp hsent with hsent | hsent
        · exact h.delivers.sendable sent hsent
        · cases List.mem_singleton.mp hsent
          exact hprojected projected rfl
      · rw [delivered_append, List.map_append, List.nodup_append]
        refine ⟨h.delivers.once, List.nodup_singleton _, fun pair hpair other hother heq => ?_⟩
        obtain ⟨sent, hsent, rfl⟩ := List.mem_map.mp hpair
        cases List.mem_singleton.mp hother
        have hnoted := h.noted sent hsent
        rw [heq] at hnoted
        exact hnew hnoted
      · intro sent hsent
        rw [delivered_append] at hsent
        rcases List.mem_append.mp hsent with hsent | hsent
        · exact List.mem_cons_of_mem _ (h.noted sent hsent)
        · cases List.mem_singleton.mp hsent
          exact List.mem_cons_self ..

/-- A fan-out that delivers over a projection sends nothing that the reader may not get, match by
match. -/
theorem returns_fanoutProjectedLiveEvent {subscriptions : LiveSubscriptionSet}
    {storeOffset : StoreOffset} {delivery : RelayLiveProjectionDelivery}
    (h : Delivering relay auth subscriptions delivery) :
    Returns
      (relay.fanoutProjectedLiveEvent subscriptions event storeOffset auth projection delivery)
      (Delivering relay auth subscriptions) :=
  .bind (.liftM fun _ hfanout => mayGet_of_fanout hfanout) fun _ hmay =>
    Returns.foldlM h fun _ matched hmatched hdelivery =>
      returns_deliverMatch hdelivery (hmay matched hmatched)

/-- Delivering one candidate sends nothing that the reader may not get. -/
theorem returns_deliverCandidate {subscriptions : LiveSubscriptionSet} {candidate : StoreOffset}
    {delivery : RelayLiveProjectionDelivery} (h : Delivering relay auth subscriptions delivery) :
    Returns (relay.deliverCandidate subscriptions auth projection delivery candidate)
      (Delivering relay auth subscriptions) := by
  unfold RelayDeliveries.deliverCandidate
  split
  · exact .pure h
  · exact returns_fanoutProjectedLiveEvent h

/-- **A stored event brings only what may be sent**, and nothing twice. -/
theorem returns_fanoutEventOffset {subscriptions : LiveSubscriptionSet} {offset : StoreOffset} :
    Returns (relay.fanoutEventOffsetWithProjectionContext offset subscriptions auth projection)
      (Delivers relay auth (AskedLive subscriptions)) := by
  have hempty : Delivering relay auth subscriptions ⟨[], []⟩ :=
    ⟨⟨fun _ hsent => (nomatch hsent), .nil⟩, fun _ hsent => (nomatch hsent)⟩
  refine .bind (Q := fun _ => True) (.liftM fun _ _ => trivial) fun event _ => ?_
  refine .bind (returns_fanoutProjectedLiveEvent hempty) fun delivery hdelivery => ?_
  refine .bind (Q := fun _ => True) (.liftM fun _ _ => trivial) fun context _ => ?_
  refine .bind (Q := fun _ => True) (fun _ _ _ _ => trivial) fun candidates _ => ?_
  exact .bind (Returns.foldlM hdelivery fun _ _ _ h => returns_deliverCandidate h)
    fun delivery hdelivery => .pure hdelivery.delivers

/-- **No delivery path bypasses the read gate.** Whatever the hooks are and whatever state they are
in, each event that a reply or a live delivery carries is visible to the session, matches a filter
of the request or of the subscription that it is sent to, and is sent to it once. -/
theorem delivers_only_visible (hreads : relay.reads.ReturnsMatches) (hooks : σ) :
    (∀ subscriptionId filters searchPresent report hooks',
      (relay.queryReqWithProjectionContext subscriptionId filters searchPresent auth projection).run
        hooks = .ok (report, hooks') →
      Delivers relay auth (AskedBy subscriptionId filters) report.messages) ∧
    ∀ offset subscriptions messages hooks',
      (relay.fanoutEventOffsetWithProjectionContext offset subscriptions auth projection).run
        hooks = .ok (messages, hooks') →
      Delivers relay auth (AskedLive subscriptions) messages :=
  ⟨fun _ _ _ report hooks' hrun => returns_queryReq hreads hooks report hooks' hrun,
    fun _ _ messages hooks' hrun => returns_fanoutEventOffset hooks messages hooks' hrun⟩

end

/-! ### A private group behind meddling hooks -/

namespace Sample

/-- A note that is of no group. -/
def note (createdAt : UnixTimestamp) : PocketEvent :=
  .ofTexts (eventId 1 createdAt []) member 1 createdAt []

/-- A private group is made, and two notes are stored. -/
def farmAndNotes : List ScriptLine :=
  [.start config 100, .submit (farmEvent owner 9007 10 [["private"]]) (authAs owner),
    .submit (note 20) (authAs member), .submit (note 30) (authAs member)]

/-- Hooks that let the first event pass and put the first stored event in the place of all
others. -/
def meddling : RelayRuntimeHooks Nat where
  planQuery _ := fun n => (.beforeProjection, n)
  liveProjectionCandidates _ := fun n => ([0], n)
  projectEvent _ := fun n =>
    if n = 0 then (.emit, 1) else (.replaceWithStoredOffset 0, n + 1)

/-- A session on the service and the store. -/
def session (groups : Option GroupServiceState) (store : PocketStore) : RelayDeliveries Nat where
  reads := plainReads
  events := store.events
  groups := groups
  limits := ⟨64, 10, 100, 1000, 500, 100⟩
  query := ⟨false, 100, 3600⟩
  hooks := meddling

/-- The subscription of the sample. -/
def feed : SubscriptionId :=
  ⟨"feed".toList, by decide⟩

/-- A filter that every event matches. -/
def anything : PocketFilter :=
  ⟨[], [], [], [], PocketTime.min, PocketTime.max, PocketFilter.noLimit⟩

/-- What an anonymous session is sent when it asks for notes. -/
def notesSent (state : GroupServiceState) (store : PocketStore) :
    Except BaseRelayError (List (SubscriptionId × PocketEvent)) := do
  let (report, _) ← ((session (some state) store).queryReqWithProjectionContext feed
    [{ anything with kinds := [1] }] false .unauthenticated ⟨none⟩).run 0
  return delivered report.messages

end Sample

section
open Sample

/-- A hook puts a private group's event in the place of the second note: a reader outside the group
is sent the other note and nothing else. -/
theorem delivers_only_visible_notes : ∃ state store report hooks',
    relay.Reachable (.up (some state) store) ∧
      ((session (some state) store).queryReqWithProjectionContext feed
        [{ anything with kinds := [1] }] false .unauthenticated ⟨none⟩).run 0 =
          .ok (report, hooks') ∧
      delivered report.messages = [(feed, note 30)] ∧
      Delivers (session (some state) store) .unauthenticated
        (AskedBy feed [{ anything with kinds := [1] }]) report.messages := by
  have hscript : relay.ScriptEnds (fun _ _ => true) farmAndNotes fun state store =>
      notesSent state store = .ok [(feed, note 30)] := by
    decide +kernel
  obtain ⟨state, store, hreaches, hsent⟩ := hscript.reaches
  obtain ⟨⟨report, hooks'⟩, hrun, hsent⟩ := Except.bind_eq_ok.mp hsent
  refine ⟨state, store, report, hooks', hreaches.mono fun _ _ _ => trivial, hrun,
    Except.ok.inj hsent, ?_⟩
  exact (delivers_only_visible plainReads_returnsMatches 0).1 _ _ _ report hooks' hrun

end

end Tangle
