import Tangle.Relay.Projections
import Tangle.Session.RateLimits

/-!
# Sessions

A session holds the subscriptions of one connection. A request that passes its checks and the rate
limits is searched first; only then the session takes a permit of the host for a new subscription
and keeps the filters. A request whose filters name all that they can find is answered without a
subscription. A permit that is dropped is given back.
-/

namespace Tangle

/-! ## The limits of the host -/

/-- How many subscriptions the sessions of a host may hold, and how many they do
(`RelayResourceLimiter`). -/
structure RelayResourceLimiter where
  maxSubscriptions : Nat
  activeSubscriptions : Nat

/-- What a session holds for its subscriptions, until it is dropped. -/
structure RelaySubscriptionPermit where
  count : Nat

/-- `increment_with_limit`: a sum that is past the limit, or past the machine's numbers, is
refused. -/
def incrementWithLimit (counter amount limit : Nat) (message : String) :
    Except BaseRelayError Nat :=
  if counter + amount > u64Max then
    .error (.restricted message)
  else if counter + amount > limit then
    .error (.restricted message)
  else
    .ok (counter + amount)

namespace RelayResourceLimiter

variable (limiter : RelayResourceLimiter)

/-- `RelayResourceLimiter::new`: nothing is taken yet. -/
def new (maxSubscriptions : Nat) : RelayResourceLimiter :=
  ⟨maxSubscriptions, 0⟩

/-- `try_open_subscriptions`: the permit counts what it has taken. -/
def tryOpenSubscriptions (count : Nat) :
    Except BaseRelayError (RelaySubscriptionPermit × RelayResourceLimiter) :=
  if count = 0 then
    .error (.invalid "subscription reservation count must be greater than zero")
  else do
    let activeSubscriptions ← incrementWithLimit limiter.activeSubscriptions count
      limiter.maxSubscriptions "host total subscription limit exceeded"
    return (⟨count⟩, { limiter with activeSubscriptions })

/-- Takes a dropped permit back; the counter wraps. -/
def release (permit : RelaySubscriptionPermit) : RelayResourceLimiter :=
  { limiter with
    activeSubscriptions := (limiter.activeSubscriptions + 2 ^ 64 - permit.count) % 2 ^ 64 }

end RelayResourceLimiter

/-! ## Live subscriptions -/

/-- What became of a CLOSE. -/
inductive CloseResult where
  | closed | notFound
deriving DecidableEq

namespace LiveSubscriptionSet

variable (set : LiveSubscriptionSet) (subscriptionId : SubscriptionId) (filters : List PocketFilter)

/-- `LiveSubscriptionSet::new`: both limits must be positive. -/
def new (maxPendingEvents maxSubscriptions : Nat) : Except BaseRelayError LiveSubscriptionSet :=
  if maxPendingEvents = 0 then
    .error (.invalid "live subscription pending event limit must be greater than zero")
  else if maxSubscriptions = 0 then
    .error (.invalid "live subscription count limit must be greater than zero")
  else
    .ok ⟨∅, maxSubscriptions⟩

/-- `contains`. -/
def contains : Bool :=
  set.subscriptions.contains subscriptionId

/-- `ensure_can_subscribe`: a subscription has filters, and a new one needs room in the set. -/
def ensureCanSubscribe : Except BaseRelayError Unit :=
  if filters.isEmpty then
    .error (.invalid "subscription must include at least one filter")
  else if !set.contains subscriptionId && set.maxSubscriptions ≤ set.subscriptions.size then
    .error (.invalid "connection subscription limit exceeded")
  else
    .ok ()

/-- `subscribe`: the filters take the place of any under the same id. -/
def subscribe : Except BaseRelayError LiveSubscriptionSet := do
  set.ensureCanSubscribe subscriptionId filters
  return { set with subscriptions := set.subscriptions.insert subscriptionId filters }

/-- `close`. -/
def close : CloseResult × LiveSubscriptionSet :=
  if set.contains subscriptionId then
    (.closed, { set with subscriptions := set.subscriptions.erase subscriptionId })
  else
    (.notFound, set)

/-- Ends all subscriptions and returns how many there were. -/
def closeAll : Nat × LiveSubscriptionSet :=
  (set.subscriptions.size, { set with subscriptions := ∅ })

end LiveSubscriptionSet

/-! ## Sessions -/

/-- What a session runs on: the relay, its rate limits for requests, and Pocket's answer to whether
a filter names all that it can find (`Filter::completes`). -/
structure RelayRuntimeHandle (σ : Type) extends RelayDeliveries σ where
  completes : PocketFilter → Bool
  reqRateLimits : TangleQueryRateLimitConfig

/-- The session of a connection. -/
structure TangleWebSocketSession where
  connectionId : Nat
  peerIp : Option IpAddr
  limits : BaseRelayRequestLimits
  auth : GroupAuthContext
  subscriptions : LiveSubscriptionSet
  /-- Whether the session was given the limiter of the host. -/
  resourceLimited : Bool
  subscriptionPermits : BTreeMap SubscriptionId RelaySubscriptionPermit
  projection : RelayProjectionContext

/-- A session, and what it shares with the others: the limits of the host, the rate limiter, and the
state of the hooks. -/
structure SessionWorld (σ : Type) where
  session : TangleWebSocketSession
  resources : RelayResourceLimiter
  rateLimiter : TangleRateLimiter
  hooks : σ

/-- `ReqMessage`, as it is parsed. -/
structure ReqMessage where
  subscriptionId : SubscriptionId
  filters : List PocketFilter
  searchPresent : Bool

/-- What a message is answered with. -/
abbrev Replies : Type :=
  Except BaseRelayError (List RuntimeRelayMessage)

namespace TangleWebSocketSession

/-- `client_rate_limit_context`: where the session's messages come from. -/
def clientRateLimitContext (session : TangleWebSocketSession) : TangleClientRateLimitContext :=
  ⟨session.peerIp, some session.connectionId⟩

/-- `validate_req`: the id of the subscription and then the filters. -/
def validateReq (session : TangleWebSocketSession) (req : ReqMessage) :
    Except BaseRelayError Unit := do
  session.limits.validateSubscriptionId req.subscriptionId
  session.limits.validatePocketFilters req.filters

end TangleWebSocketSession

/-- `pocket_filters_are_complete`: a query of these filters leaves nothing to wait for. -/
def pocketFiltersAreComplete (completes : PocketFilter → Bool) (filters : List PocketFilter) :
    Bool :=
  !filters.isEmpty && filters.all completes

namespace SessionWorld

variable {σ : Type} (world : SessionWorld σ)

/-- Drops the permit that a session has for a subscription, if it has one. -/
def dropPermit (subscriptionId : SubscriptionId) : SessionWorld σ :=
  { world with
    session := { world.session with
      subscriptionPermits := world.session.subscriptionPermits.erase subscriptionId }
    resources := match world.session.subscriptionPermits[subscriptionId]? with
      | some permit => world.resources.release permit
      | none => world.resources }

/-- Keeps a permit in the place of the one that the session had for a subscription. -/
def keepPermit (subscriptionId : SubscriptionId) (permit : RelaySubscriptionPermit) :
    SessionWorld σ :=
  { world.dropPermit subscriptionId with
    session := { world.session with
      subscriptionPermits := world.session.subscriptionPermits.insert subscriptionId permit } }

/-- The permit for a new subscription, if the host has limits. -/
def hostPermit (alreadySubscribed : Bool) :
    Except BaseRelayError (Option RelaySubscriptionPermit × RelayResourceLimiter) :=
  if alreadySubscribed then
    .ok (none, world.resources)
  else if world.session.resourceLimited then do
    let (permit, resources) ← world.resources.tryOpenSubscriptions 1
    return (some permit, resources)
  else
    .ok (none, world.resources)

/-- Keeps a subscription. A permit whose subscription is refused is dropped. -/
def openSubscription (subscriptionId : SubscriptionId) (filters : List PocketFilter) :
    Except BaseRelayError Unit × SessionWorld σ :=
  match world.hostPermit (world.session.subscriptions.contains subscriptionId) with
  | .error error => (.error error, world)
  | .ok (permit, resources) =>
    match world.session.subscriptions.subscribe subscriptionId filters with
    | .error error =>
      (.error error, { world with
        resources := match permit with
          | some permit => resources.release permit
          | none => resources })
    | .ok subscriptions =>
      let world := { world with session := { world.session with subscriptions }, resources }
      (.ok (), match permit with
        | some permit => world.keepPermit subscriptionId permit
        | none => world)

/-- The search of a request. A search that fails leaves the hooks as they were. -/
def queryReq (runtime : RelayRuntimeHandle σ) (req : ReqMessage) :
    Except BaseRelayError BaseRelayQueryReport × SessionWorld σ :=
  match (runtime.queryReqWithProjectionContext req.subscriptionId req.filters req.searchPresent
    world.session.auth world.session.projection).run world.hooks with
  | .error error => (.error error, world)
  | .ok (report, hooks) => (.ok report, { world with hooks })

/-- Answers a request that the rate limits let pass, and keeps its subscription. -/
def answerReq (runtime : RelayRuntimeHandle σ) (req : ReqMessage) : Replies × SessionWorld σ :=
  let shouldSubscribe := !pocketFiltersAreComplete runtime.completes req.filters
  let canSubscribe := if shouldSubscribe then
    world.session.subscriptions.ensureCanSubscribe req.subscriptionId req.filters
  else
    .ok ()
  match canSubscribe with
  | .error error => (.error error, world)
  | .ok () =>
    match world.queryReq runtime req with
    | (.error error, world) => (.error error, world)
    | (.ok report, world) =>
      if shouldSubscribe && !report.groupReadDenied then
        match world.openSubscription req.subscriptionId req.filters with
        | (.error error, world) => (.error error, world)
        | (.ok (), world) => (.ok report.messages, world)
      else
        (.ok report.messages, world)

/-- Records a request in the rate limiter. -/
def rateLimitReq (runtime : RelayRuntimeHandle σ) (req : ReqMessage) (now : UnixTimestamp) :
    Option RelayMessage × SessionWorld σ :=
  let (message, rateLimiter) := (rateLimitReqPocket runtime.limits runtime.reqRateLimits
    req.subscriptionId req.filters world.session.auth world.session.clientRateLimitContext now).run
    world.rateLimiter
  (message, { world with rateLimiter })

/-- Answers a request (`handle_req`). -/
def handleReq (runtime : RelayRuntimeHandle σ) (req : ReqMessage) (now : UnixTimestamp) :
    Replies × SessionWorld σ :=
  match world.session.validateReq req with
  | .error error => (.error error, world)
  | .ok () =>
    match BaseRelay.unsupportedSearchPresentClosed req.subscriptionId req.searchPresent with
    | some message => (.ok [.relay message], world)
    | none =>
      match world.rateLimitReq runtime req now with
      | (some message, world) => (.ok [.relay message], world)
      | (none, world) => world.answerReq runtime req

/-- Ends a subscription (`handle_client_message` of a `Close`). -/
def handleClose (subscriptionId : SubscriptionId) : Replies × SessionWorld σ :=
  match world.session.limits.validateSubscriptionId subscriptionId with
  | .error error => (.error error, world)
  | .ok () =>
    match world.session.subscriptions.close subscriptionId with
    | (.notFound, _) => (.ok [], world)
    | (.closed, subscriptions) =>
      (.ok [], { world with session := { world.session with subscriptions } }.dropPermit
        subscriptionId)

/-- Ends all subscriptions; every permit is dropped. -/
def closeAllSubscriptions : Nat × SessionWorld σ :=
  let (closed, subscriptions) := world.session.subscriptions.closeAll
  (closed, { world with
    session := { world.session with subscriptions, subscriptionPermits := ∅ }
    resources := world.session.subscriptionPermits.toList.foldl
      (fun resources permit => resources.release permit.2) world.resources })

end SessionWorld

/-! ## Messages of a session -/

/-- The messages of a client that change its subscriptions. -/
inductive SubscriptionMessage where
  | req (req : ReqMessage)
  | close (subscriptionId : SubscriptionId)

namespace SubscriptionMessage

/-- The subscription that a message is about. -/
def subscriptionId : SubscriptionMessage → SubscriptionId
  | .req message => message.subscriptionId
  | .close subscriptionId => subscriptionId

end SubscriptionMessage

/-- Answers a message. -/
def SessionWorld.handleClientMessage {σ : Type} (world : SessionWorld σ)
    (runtime : RelayRuntimeHandle σ) (now : UnixTimestamp) :
    SubscriptionMessage → Replies × SessionWorld σ
  | .req message => world.handleReq runtime message now
  | .close subscriptionId => world.handleClose subscriptionId

end Tangle
