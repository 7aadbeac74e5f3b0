import Tangle.Relay.Queries

/-!
# Projected deliveries

The embedder of a relay may change what a client is sent: its hooks choose how a request is
searched, suppress an event or put another stored event in its place, and name further stored events
to send when one is stored. The hooks are any functions over a state of their own
(`RelayRuntimeHooks`).
-/

namespace Tangle

/-! ## What the hooks see -/

/-- `RelayRequestedKinds`: every kind, or those that a filter lists. -/
inductive RelayRequestedKinds where
  | absent
  | explicit (kinds : BTreeSet Nat)

/-- `RelayMatchedFilterContext`: a filter that an event matches, and its place in the request. -/
structure RelayMatchedFilterContext where
  filterIndex : Nat
  requestedKinds : RelayRequestedKinds

/-- `RelayMatchedFilterContext::from_filter`. -/
def RelayMatchedFilterContext.fromFilter (filterIndex : Nat) (filter : PocketFilter) :
    RelayMatchedFilterContext where
  filterIndex := filterIndex
  requestedKinds :=
    if filter.kinds.isEmpty then
      .absent
    else
      .explicit (Std.ExtTreeSet.ofList (filter.kinds.map UInt16.toNat) compare)

/-- What the session names its projection. -/
structure RelayProjectionContext where
  identifier : Option Text

/-- `RelayEventContext`: what a hook is told of the connection. -/
structure RelayEventContext where
  eventId : Text
  pubkey : Text
  createdAt : Nat
  kind : Nat
  tags : List (List Text)
  content : Text

/-- The event as text; a tag value that is not UTF-8 makes this fail. -/
def RelayEventContext.fromPocketEvent (reads : PocketReads) (event : PocketEvent) :
    Except BaseRelayError RelayEventContext := do
  let tags ← event.tags.mapM fun tag => tag.mapM fun value =>
    match value with
    | .text value => Except.ok value
    | .raw bytes => .error (BaseRelayError.invalid (reads.utf8Error bytes))
  return ⟨event.id.text, event.pubkey.text, event.createdAt, event.kind.toNat, tags, event.content⟩

/-- `RelayEventProjectionSource`: whether an event comes from a query or live. -/
inductive RelayEventProjectionSource where
  | historicalQuery
  | liveFanout (storeOffset : StoreOffset)

/-- `RelayQueryProjectionContext`: what a hook is told of a query. -/
structure RelayQueryProjectionContext where
  subscriptionId : SubscriptionId
  projection : RelayProjectionContext
  filters : List RelayMatchedFilterContext
  authenticatedPubkeys : List PublicKeyHex

/-- `RelayLiveProjectionContext`: what a hook is told of a live event. -/
structure RelayLiveProjectionContext where
  projection : RelayProjectionContext
  sourceStoreOffset : StoreOffset
  event : RelayEventContext
  authenticatedPubkeys : List PublicKeyHex

/-- `RelayEventProjectionContext`: an event with the filters that it matches. -/
structure RelayEventProjectionContext where
  subscriptionId : SubscriptionId
  projection : RelayProjectionContext
  source : RelayEventProjectionSource
  matchedFilters : List RelayMatchedFilterContext
  event : RelayEventContext
  authenticatedPubkeys : List PublicKeyHex

/-! ## Filters that match -/

/-- A filter that an event matches, with what the hooks see of it. -/
abbrev MatchedFilter : Type :=
  RelayMatchedFilterContext × PocketFilter

namespace RelayServices

variable (services : RelayServices)

/-- `event_matches`: what Pocket says of an event and a filter. -/
def eventMatches (filter : PocketFilter) (event : PocketEvent) : Except BaseRelayError Bool :=
  (services.reads.eventMatches filter event).mapError .error

/-- Whether the event matches one of the filters, tried in their order until one does. -/
def matchesAny (event : PocketEvent) : List MatchedFilter → Except BaseRelayError Bool
  | [] => .ok false
  | (_, filter) :: rest => do
    if ← services.eventMatches filter event then
      return true
    else
      matchesAny event rest

/-- The filters that an event matches, with their places among the filters. -/
def filtersMatchedFrom (event : PocketEvent) (filterIndex : Nat) :
    List PocketFilter → Except BaseRelayError (List MatchedFilter)
  | [] => .ok []
  | filter :: rest => do
    let matched ← services.eventMatches filter event
    let others ← filtersMatchedFrom event (filterIndex + 1) rest
    return if matched then
      (RelayMatchedFilterContext.fromFilter filterIndex filter, filter) :: others
    else
      others

/-- `matched_filters_for_event`: the filters that match, in the order of the request, an error when
none does. -/
def matchedFiltersForEvent (filters : List PocketFilter) (event : PocketEvent) :
    Except BaseRelayError (List MatchedFilter) := do
  let matchedFilters ← services.filtersMatchedFrom event 0 filters
  if matchedFilters.isEmpty then
    .error (.error "query output did not match any request filter")
  else
    return matchedFilters

end RelayServices

/-! ## Live subscriptions -/

/-- The open subscriptions of a session, with their filters (`LiveSubscriptionSet`). -/
structure LiveSubscriptionSet where
  subscriptions : BTreeMap SubscriptionId (List PocketFilter)
  maxSubscriptions : Nat

/-- `LiveSubscriptionMatch`: a subscription with those of its filters that an event matches. -/
structure LiveSubscriptionMatch where
  subscriptionId : SubscriptionId
  matchedFilters : List MatchedFilter

namespace RelayServices

variable (services : RelayServices)

/-- The gate of a live delivery: an event on which it fails is not shown. -/
def visibleToLive (event : PocketEvent) (auth : GroupAuthContext) : Bool :=
  match BaseRelay.groupReadGateVisibleToAuth services.groups event auth with
  | .ok visible => visible
  | .error _ => false

/-- The subscriptions that get an event, with their filters that it matches. -/
def fanoutFrom (event : PocketEvent) (auth : GroupAuthContext) :
    List (SubscriptionId × List PocketFilter) → Except BaseRelayError (List LiveSubscriptionMatch)
  | [] => .ok []
  | (subscriptionId, filters) :: rest => do
    let matchedFilters ← services.filtersMatchedFrom event 0 filters
    let others ← fanoutFrom event auth rest
    return if matchedFilters.isEmpty then
      others
    else if services.visibleToLive event auth then
      ⟨subscriptionId, matchedFilters⟩ :: others
    else
      others

/-- `fanout`: each subscription with a filter that the event matches, if the gate lets the event
through. -/
def fanout (subscriptions : LiveSubscriptionSet) (event : PocketEvent) (auth : GroupAuthContext) :
    Except BaseRelayError (List LiveSubscriptionMatch) :=
  services.fanoutFrom event auth subscriptions.subscriptions.toList

end RelayServices

/-! ## What the hooks decide -/

/-- `RelayProjectionQueryLimit`: whether the filters' limits cut before the hooks are asked, or
afterwards, with a bound on the candidates. -/
inductive RelayProjectionQueryLimit where
  | beforeProjection
  | afterProjection (candidateLimit : { limit : UInt32 // limit ≠ 0 })

/-- `RelayEventProjectionDecision`: the event is sent, left out, or replaced by the one stored at an
offset. -/
inductive RelayEventProjectionDecision where
  | emit
  | suppress
  | replaceWithStoredOffset (storeOffset : StoreOffset)

/-- The hooks of an embedder, over a state of their own. -/
structure RelayRuntimeHooks (σ : Type) where
  planQuery : RelayQueryProjectionContext → StateM σ RelayProjectionQueryLimit
  liveProjectionCandidates : RelayLiveProjectionContext → StateM σ (List StoreOffset)
  projectEvent : RelayEventProjectionContext → StateM σ RelayEventProjectionDecision

/-- A step that may call the hooks and may fail. -/
abbrev HookM (σ α : Type) : Type :=
  StateT σ (Except BaseRelayError) α

/-- Calls a hook, which does not fail. -/
def HookM.call {σ α : Type} (hook : StateM σ α) : HookM σ α :=
  fun s => .ok (hook.run s)

/-- What a session's deliveries are made from. -/
structure RelayDeliveries (σ : Type) extends RelayServices where
  hooks : RelayRuntimeHooks σ

instance {σ : Type} : CoeOut (RelayDeliveries σ) RelayServices :=
  ⟨RelayDeliveries.toRelayServices⟩

/-- `RelayEventProjectionRequest`: what a hook is asked about. -/
structure RelayEventProjectionRequest where
  subscriptionId : SubscriptionId
  projection : RelayProjectionContext
  source : RelayEventProjectionSource
  event : PocketEvent
  auth : GroupAuthContext
  matchedFilters : List MatchedFilter

/-! ## Queries -/

namespace RelayDeliveries

variable {σ : Type} (relay : RelayDeliveries σ)

/-- What the hooks make of an event. What they put in its place is sent only if the reader may read
it and it matches one of the filters that the event matched. -/
def projectEventOutput (request : RelayEventProjectionRequest) : HookM σ (Option PocketEvent) := do
  let event ← liftM (RelayEventContext.fromPocketEvent relay.reads request.event)
  let decision ← HookM.call (relay.hooks.projectEvent
    { subscriptionId := request.subscriptionId
      projection := request.projection
      source := request.source
      matchedFilters := request.matchedFilters.map Prod.fst
      event := event
      authenticatedPubkeys := request.auth.authenticatedPubkeys.toList })
  match decision with
  | .emit => return some request.event
  | .suppress => return none
  | .replaceWithStoredOffset storeOffset =>
    match relay.reads.eventByOffset relay.events storeOffset with
    | .error _ => return none
    | .ok replacement =>
      let visible ← liftM
        (BaseRelay.groupReadGateVisibleToAuth relay.groups replacement request.auth)
      if visible then
        let matched ← liftM (relay.matchesAny replacement request.matchedFilters)
        return if matched then some replacement else none
      else
        return none

/-- An event that a query has found, as the hooks make it. -/
def projectFoundEvent (subscriptionId : SubscriptionId) (filters : List PocketFilter)
    (projection : RelayProjectionContext) (auth : GroupAuthContext) (event : PocketEvent) :
    HookM σ (Option PocketEvent) := do
  let matchedFilters ← liftM (relay.matchedFiltersForEvent filters event)
  relay.projectEventOutput
    { subscriptionId, projection, source := .historicalQuery, event, auth, matchedFilters }

/-- Takes the messages of a reply through the hooks, leaving out events whose ids were seen. -/
def projectRuntimeMessages (filters : List PocketFilter) (projection : RelayProjectionContext)
    (auth : GroupAuthContext) (eventIds : BTreeSet EventId) :
    List RuntimeRelayMessage → HookM σ (List RuntimeRelayMessage)
  | [] => return []
  | .event subscriptionId event :: rest => do
    match ← relay.projectFoundEvent subscriptionId filters projection auth event with
    | none => projectRuntimeMessages filters projection auth eventIds rest
    | some projected =>
      if projected.id ∈ eventIds then
        projectRuntimeMessages filters projection auth eventIds rest
      else
        let others ← projectRuntimeMessages filters projection auth
          (eventIds.insert projected.id) rest
        return .event subscriptionId projected :: others
  | .relay message :: rest => do
    let others ← projectRuntimeMessages filters projection auth eventIds rest
    return .relay message :: others

/-- `project_query_report`: the messages of a reply go through the hooks, and the count of what is
returned follows them. -/
def projectQueryReport (report : BaseRelayQueryReport) (filters : List PocketFilter)
    (projection : RelayProjectionContext) (auth : GroupAuthContext) :
    HookM σ BaseRelayQueryReport := do
  let messages ← relay.projectRuntimeMessages filters projection auth ∅ report.messages
  return ⟨messages, report.groupReadDenied,
    report.queryMetrics.withReturnedEvents (delivered messages).length⟩

/-- Adds what the hooks make of one filter's events to those of the filters before it. -/
def queryNextProjectedFilter (subscriptionId : SubscriptionId) (filters : List PocketFilter)
    (auth : GroupAuthContext) (projection : RelayProjectionContext) (candidateLimit : UInt32)
    (report : BaseRelayEventQueryReport) (filter : PocketFilter) :
    HookM σ BaseRelayEventQueryReport := do
  let found ← liftM (relay.queryFilterEventsReport relay.query filter auth
    (.override candidateLimit))
  let projected ← (BaseRelay.sortAndDedupeQueryEvents found.events).mapM
    (relay.projectFoundEvent subscriptionId filters projection auth)
  let events := (BaseRelay.sortAndDedupeQueryEvents projected.reduceOption).take
    (relay.limits.effectivePocketFilterLimit filter)
  return ⟨report.events ++ events, report.groupReadDenied || found.groupReadDenied,
    report.queryMetrics.add found.queryMetrics⟩

/-- `query_projected_req`: the candidates of each filter go through the hooks before the filter's
own limit cuts them, and what is left of all filters is sorted with each event once. -/
def queryProjectedReq (subscriptionId : SubscriptionId) (filters : List PocketFilter)
    (searchPresent : Bool) (auth : GroupAuthContext) (projection : RelayProjectionContext)
    (candidateLimit : UInt32) : HookM σ BaseRelayQueryReport := do
  liftM (relay.validateRequest subscriptionId filters)
  match BaseRelay.unsupportedSearchPresentClosed subscriptionId searchPresent with
  | some message => return ⟨[.relay message], false, .default⟩
  | none =>
    let report ← filters.foldlM
      (relay.queryNextProjectedFilter subscriptionId filters auth projection candidateLimit)
      ⟨[], false, .default⟩
    let events := BaseRelay.sortAndDedupeQueryEvents report.events
    return ⟨events.map (.event subscriptionId) ++
        [RelayServices.lastMessage subscriptionId auth report.groupReadDenied],
      report.groupReadDenied, report.queryMetrics.withReturnedEvents events.length⟩

/-- The reply to a request of a session
(`query_req_with_auth_report_with_projection_context`). -/
def queryReqWithProjectionContext (subscriptionId : SubscriptionId) (filters : List PocketFilter)
    (searchPresent : Bool) (auth : GroupAuthContext) (projection : RelayProjectionContext) :
    HookM σ BaseRelayQueryReport := do
  let plan ← HookM.call (relay.hooks.planQuery
    { subscriptionId
      projection
      filters := filters.mapIdx RelayMatchedFilterContext.fromFilter
      authenticatedPubkeys := auth.authenticatedPubkeys.toList })
  match plan with
  | .beforeProjection =>
    let report ← liftM
      (relay.queryReqWithGroupAuth subscriptionId filters searchPresent auth)
    relay.projectQueryReport report filters projection auth
  | .afterProjection candidateLimit =>
    relay.queryProjectedReq subscriptionId filters searchPresent auth projection
      candidateLimit.1

end RelayDeliveries

/-! ## Live deliveries -/

/-- What has been sent so far for a stored event, and to which subscriptions. -/
structure RelayLiveProjectionDelivery where
  delivered : List (SubscriptionId × EventId)
  messages : List RuntimeRelayMessage

namespace RelayDeliveries

variable {σ : Type} (relay : RelayDeliveries σ)

/-- Sends an event to one subscription, as the hooks make it, unless it has got it already. -/
def deliverMatch (event : PocketEvent) (storeOffset : StoreOffset) (auth : GroupAuthContext)
    (projection : RelayProjectionContext) (delivery : RelayLiveProjectionDelivery)
    (matched : LiveSubscriptionMatch) : HookM σ RelayLiveProjectionDelivery := do
  let projected ← relay.projectEventOutput
    { subscriptionId := matched.subscriptionId, projection, source := .liveFanout storeOffset,
      event, auth, matchedFilters := matched.matchedFilters }
  match projected with
  | none => return delivery
  | some projected =>
    if (matched.subscriptionId, projected.id) ∈ delivery.delivered then
      return delivery
    else
      return ⟨(matched.subscriptionId, projected.id) :: delivery.delivered,
        delivery.messages ++ [.event matched.subscriptionId projected]⟩

/-- `fanout_projected_live_event`: each subscription that matches asks the hooks with its own
filters. -/
def fanoutProjectedLiveEvent (subscriptions : LiveSubscriptionSet) (event : PocketEvent)
    (storeOffset : StoreOffset) (auth : GroupAuthContext) (projection : RelayProjectionContext)
    (delivery : RelayLiveProjectionDelivery) : HookM σ RelayLiveProjectionDelivery := do
  let subscriptions ← liftM (relay.fanout subscriptions event auth)
  subscriptions.foldlM (relay.deliverMatch event storeOffset auth projection) delivery

/-- Sends a stored event that the hooks have named, if it is there. -/
def deliverCandidate (subscriptions : LiveSubscriptionSet) (auth : GroupAuthContext)
    (projection : RelayProjectionContext) (delivery : RelayLiveProjectionDelivery)
    (candidate : StoreOffset) : HookM σ RelayLiveProjectionDelivery :=
  match relay.reads.eventByOffset relay.events candidate with
  | .error _ => return delivery
  | .ok event => relay.fanoutProjectedLiveEvent subscriptions event candidate auth projection
      delivery

/-- The messages of a session for a stored event
(`fanout_event_offset_with_projection_context`). -/
def fanoutEventOffsetWithProjectionContext (offset : StoreOffset)
    (subscriptions : LiveSubscriptionSet) (auth : GroupAuthContext)
    (projection : RelayProjectionContext) : HookM σ (List RuntimeRelayMessage) := do
  let event ← liftM ((relay.reads.eventByOffset relay.events offset).mapError BaseRelayError.error)
  let delivery ← relay.fanoutProjectedLiveEvent subscriptions event offset auth projection ⟨[], []⟩
  let context ← liftM (RelayEventContext.fromPocketEvent relay.reads event)
  let candidates ← HookM.call (relay.hooks.liveProjectionCandidates
    ⟨projection, offset, context, auth.authenticatedPubkeys.toList⟩)
  let delivery ← candidates.foldlM (relay.deliverCandidate subscriptions auth projection) delivery
  return delivery.messages

end RelayDeliveries

end Tangle
