import Tangle.Relay.Auth
import Tangle.Relay.Projections
import Tangle.Session.RateWindows

/-!
# Limits of events

An event is recorded under the keys of its peer, its author and its kind, and one of a group also
under keys of the group, before anything but its text has been looked at; what lets it pass is then
admitted and handed to the relay, which verifies its signature. An authentication is recorded under
the keys of its peer and its author before it is checked, and once more when it failed.
-/

namespace Tangle

open GroupEventView

/-- `TangleAuthRateLimitConfig`: the rules for AUTH messages, by address and by key, and for those
that fail. -/
structure TangleAuthRateLimitConfig where
  perIp : TangleRateLimitRule
  perPubkey : TangleRateLimitRule
  failures : TangleRateLimitRule
  failuresPerIp : TangleRateLimitRule

/-- `TangleEventRateLimitConfig`: the rules for EVENT messages, by address, by author and by
kind. -/
structure TangleEventRateLimitConfig where
  perIp : TangleRateLimitRule
  perPubkey : TangleRateLimitRule
  perKind : TangleRateLimitRule

/-- `TangleGroupRateLimitConfig`: the rules for writes and joins to a group. -/
structure TangleGroupRateLimitConfig where
  writePerIp : TangleRateLimitRule
  writePerPubkey : TangleRateLimitRule
  writePerGroup : TangleRateLimitRule
  writePerKind : TangleRateLimitRule
  joinFlow : TangleRateLimitRule
  joinFlowPerIp : TangleRateLimitRule

/-- `TangleRateLimitConfig`: every rule of the relay. -/
structure TangleRateLimitConfig where
  auth : TangleAuthRateLimitConfig
  event : TangleEventRateLimitConfig
  group : TangleGroupRateLimitConfig
  req : TangleQueryRateLimitConfig
  count : TangleQueryRateLimitConfig

/-! ## Refusals -/

/-- What a refusal names. -/
inductive RateLimitLabel where
  | eventIp | eventPubkey | eventKind
  | authIp | authPubkey | authFailureIp | authFailure
  | groupJoinIp | groupJoin | groupIp | groupPubkey | groupWrite | groupKind
deriving DecidableEq

/-- The words that a refusal names the rule by. -/
def RateLimitLabel.asStr : RateLimitLabel → String
  | eventIp => "event ip"
  | eventPubkey => "event pubkey"
  | eventKind => "event kind"
  | authIp => "auth ip"
  | authPubkey => "auth pubkey"
  | authFailureIp => "auth failure ip"
  | authFailure => "auth failure"
  | groupJoinIp => "group join ip"
  | groupJoin => "group join"
  | groupIp => "group ip"
  | groupPubkey => "group pubkey"
  | groupWrite => "group write"
  | groupKind => "group kind"

/-- A key that an event is recorded under. -/
structure RateLimitCharge where
  key : TangleRateLimitKey
  rule : TangleRateLimitRule
  label : RateLimitLabel

/-- The refusal of an event. -/
structure RateLimitRejection where
  eventId : EventId
  label : RateLimitLabel
  resetAt : UnixTimestamp
deriving DecidableEq

/-- `RateLimitRejection::to_message`: the answer to a message that was refused. -/
def RateLimitRejection.toMessage (rejection : RateLimitRejection) : RelayMessage :=
  .ok rejection.eventId false (BaseRelayError.rateLimited
    s!"{rejection.label.asStr} rate limit exceeded until {rejection.resetAt}").prefixedMessage

/-- Records an event under one key; a full window refuses it. -/
def rateLimitOkPocket (event : PocketEvent) (charge : RateLimitCharge) (now : UnixTimestamp) :
    StateM TangleRateLimiter (Option RateLimitRejection) := do
  match ← TangleRateLimiter.record charge.key charge.rule now with
  | .allowed _ _ => return none
  | .rejected resetAt => return some ⟨event.id, charge.label, resetAt⟩

/-- Records an event under one key after another, until a window is full. -/
def rateLimitOkAll (event : PocketEvent) (now : UnixTimestamp) :
    List RateLimitCharge → StateM TangleRateLimiter (Option RateLimitRejection)
  | [] => return none
  | charge :: rest => do
    match ← rateLimitOkPocket event charge now with
    | some rejection => return some rejection
    | none => rateLimitOkAll event now rest

/-! ## The keys of an event -/

section
variable (rules : TangleRateLimitConfig) (event : PocketEvent)
  (context : TangleClientRateLimitContext) (now : UnixTimestamp)

/-- The charges of an EVENT message, in the order in which the source makes them. -/
def eventCharges : List RateLimitCharge :=
  (context.peerIp.toList.map fun ip => ⟨.ip .event ip, rules.event.perIp, .eventIp⟩) ++
    [⟨.pubkey .event event.pubkey, rules.event.perPubkey, .eventPubkey⟩,
      ⟨.kind .event (kindU32 event), rules.event.perKind, .eventKind⟩]

/-- The charges of an AUTH message before it is checked. -/
def authAttemptCharges : List RateLimitCharge :=
  (context.peerIp.toList.map fun ip => ⟨.ip .auth ip, rules.auth.perIp, .authIp⟩) ++
    [⟨.pubkey .auth event.pubkey, rules.auth.perPubkey, .authPubkey⟩]

/-- The charges of an AUTH message that has failed its checks. -/
def authFailureCharges : List RateLimitCharge :=
  (context.peerIp.toList.map fun ip =>
      ⟨.authFailure (some ip) none, rules.auth.failuresPerIp, .authFailureIp⟩) ++
    [⟨.authFailure none (some event.pubkey), rules.auth.failures, .authFailure⟩]

/-- The charges of a join request, made before those of any write. -/
def joinCharges (groupId : GroupId) : List RateLimitCharge :=
  (context.peerIp.toList.map fun ip =>
      ⟨.joinFlowIp groupId ip, rules.group.joinFlowPerIp, .groupJoinIp⟩) ++
    [⟨.joinFlow groupId event.pubkey, rules.group.joinFlow, .groupJoin⟩]

/-- The charges of a write to a group. -/
def writeCharges (groupId : GroupId) : List RateLimitCharge :=
  (context.peerIp.toList.map fun ip =>
      ⟨.ip .groupWrite ip, rules.group.writePerIp, .groupIp⟩) ++
    [⟨.pubkey .groupWrite event.pubkey, rules.group.writePerPubkey, .groupPubkey⟩,
      ⟨.group .groupWrite groupId, rules.group.writePerGroup, .groupWrite⟩,
      ⟨.kind .groupWrite (kindU32 event), rules.group.writePerKind, .groupKind⟩]

/-- The group that an event is written to, if groups are enabled and its structure is that of a
group's event. -/
def writtenGroup (config : GroupRuntimeConfig) : Option GroupId :=
  if !config.enabled then
    none
  else
    match validateClientGroupEventStructure event config.limits with
    | .error _ => none
    | .ok eventClass => eventClass.groupId

/-- The charges of a write to a group, none for an event that is written to no group. -/
def groupWriteCharges (config : GroupRuntimeConfig) : List RateLimitCharge :=
  match writtenGroup event config with
  | none => []
  | some groupId =>
    (if kindU32 event = kindGroupJoinRequest then joinCharges rules event context groupId
      else []) ++
      writeCharges rules event context groupId

/-- `rate_limit_event_pocket`. -/
def rateLimitEventPocket : StateM TangleRateLimiter (Option RateLimitRejection) :=
  rateLimitOkAll event now (eventCharges rules event context)

/-- `rate_limit_auth_attempt_pocket`. -/
def rateLimitAuthAttemptPocket : StateM TangleRateLimiter (Option RateLimitRejection) :=
  rateLimitOkAll event now (authAttemptCharges rules event context)

/-- `rate_limit_auth_failure_pocket`. -/
def rateLimitAuthFailurePocket : StateM TangleRateLimiter (Option RateLimitRejection) :=
  rateLimitOkAll event now (authFailureCharges rules event context)

/-- `rate_limit_group_write_pocket`. -/
def rateLimitGroupWritePocket (config : GroupRuntimeConfig) :
    StateM TangleRateLimiter (Option RateLimitRejection) :=
  rateLimitOkAll event now (groupWriteCharges rules event context config)

end

/-! ## Counts -/

namespace BaseRelayRequestLimits

variable (limits : BaseRelayRequestLimits)
  (hyperloglogOffset : PocketFilter → Except String (Option Nat)) (filter : PocketFilter)

/-- `has_pocket_hll_count_selector`: a sketch can answer the count. -/
def hasPocketHllCountSelector : Bool :=
  match hyperloglogOffset filter with
  | .ok offset => offset.isSome
  | .error _ => false

/-- `has_pocket_bounded_time_window`: both ends are given and no further apart than the bound. -/
def hasPocketBoundedTimeWindow : Bool :=
  filter.since ≠ PocketTime.min ∧ filter.until ≠ PocketTime.max ∧
    filter.until - filter.since ≤ broadQueryTimeWindowSeconds

/-- `has_pocket_count_bounded_selector`: ids, authors, a group, kinds within a bounded window, or
what a sketch can answer. -/
def hasPocketCountBoundedSelector : Bool :=
  hasPocketStrongConstraint filter ||
    (!filter.kinds.isEmpty && hasPocketBoundedTimeWindow filter) ||
    hasPocketHllCountSelector hyperloglogOffset filter

/-- `classify_pocket_count_filter`: the reasons are tried in the order of the source. -/
def classifyPocketCountFilter : TangleQueryClassification :=
  if !hasPocketPrimaryConstraint filter then
    .broad .missingPrimaryConstraint
  else if limits.hasPocketHighLimit filter then
    .broad .highLimit
  else if hasPocketBroadTimeWindow filter then
    .broad .broadTimeWindow
  else if !hasPocketCountBoundedSelector hyperloglogOffset filter then
    .broad .missingBoundedSelector
  else
    .bounded

/-- `classify_pocket_count`: the first broad filter decides. -/
def classifyPocketCount (filters : List PocketFilter) : TangleQueryClassification :=
  if filters.isEmpty then
    .broad .emptyFilters
  else
    ((filters.map (limits.classifyPocketCountFilter hyperloglogOffset)).find?
      TangleQueryClassification.isBroad).getD .bounded

end BaseRelayRequestLimits

/-! ## Admission -/

/-- `RelayEventAdmissionContext`: the address that an event came from and the keys authenticated on
its connection. -/
structure RelayEventAdmissionContext where
  event : RelayEventContext
  authenticatedPubkeys : List PublicKeyHex
  peerIp : Option IpAddr
  connectionId : Option Nat
  now : UnixTimestamp

/-- `EventAdmissionDecision`: the event goes on, or it is answered now. -/
inductive EventAdmissionDecision where
  | accept
  | reject (message : String)
deriving DecidableEq

/-! ## Messages -/

/-- What the messages of clients run on: the relay, what is read of Pocket's filters and of texts,
the configurations, and the hook that admits events. -/
structure RelayRuntimeShared (σ : Type) where
  relay : Relay
  reads : PocketReads
  groups : GroupRuntimeConfig
  rateLimits : TangleRateLimitConfig
  requestLimits : BaseRelayRequestLimits
  admitEvent : RelayEventAdmissionContext → StateM σ EventAdmissionDecision

/-- What the messages of clients change: the limiter, the group service and the store, what the
connections have proved, and the state of the hooks. -/
structure RuntimeWorld (σ : Type) where
  rateLimiter : TangleRateLimiter
  groups : Option GroupServiceState
  store : PocketStore
  auths : Nat → BaseAuthState
  hooks : σ

/-- A message of a client, as far as it is recorded under keys of the limiter. -/
inductive RuntimeClientMessage where
  | event (event : PocketEvent)
  | auth (event : PocketEvent)
  | req (subscriptionId : SubscriptionId) (filters : List PocketFilter) (searchPresent : Bool)
  | count (subscriptionId : SubscriptionId) (filters : List PocketFilter) (searchPresent : Bool)

/-- A message with where it comes from and when. -/
structure ClientArrival where
  connection : Nat
  context : TangleClientRateLimitContext
  now : UnixTimestamp
  message : RuntimeClientMessage

/-- What a message is answered with. The answers to requests come from the store and are left
out. -/
inductive ClientAnswer where
  | rateLimited (rejection : RateLimitRejection)
  | replies (replies : Except BaseRelayError (List RelayMessage))
  | request
deriving DecidableEq

/-- How an OK message is written as a message of the relay. -/
def OkMessage.toRelayMessage (message : OkMessage) : RelayMessage :=
  .ok message.eventId message.accepted message.message

section
variable {σ : Type} (runtime : RelayRuntimeShared σ) (world : RuntimeWorld σ)

/-- Hands an event to the relay. -/
def RuntimeWorld.handlePocketEvent (event : PocketEvent) (auth : GroupAuthContext) :
    ClientAnswer × RuntimeWorld σ :=
  match execState runtime.relay.db.handle (runtime.relay.submit event auth) world.groups
    world.store with
  | (.ok write, groups, store) =>
    (.replies (.ok [write.message.toRelayMessage]), { world with groups, store })
  | (.error error, groups, store) => (.replies (.error error), { world with groups, store })

/-- Asks the hooks, and hands an event they admit to the relay. -/
def RuntimeWorld.admitPocketEvent (event : PocketEvent) (eventContext : RelayEventContext)
    (auth : GroupAuthContext) (context : TangleClientRateLimitContext) (now : UnixTimestamp) :
    ClientAnswer × RuntimeWorld σ :=
  match (runtime.admitEvent ⟨eventContext, auth.authenticatedPubkeys.toList, context.peerIp,
    context.connectionId, now⟩).run world.hooks with
  | (.reject message, hooks) =>
    (.replies (.ok [.ok event.id false (BaseRelayError.restricted message).prefixedMessage]),
      { world with hooks })
  | (.accept, hooks) => { world with hooks }.handlePocketEvent runtime event auth

/-- `handle_client_message_with_rate_limit_context` of an event. -/
def RuntimeWorld.handleEvent (event : PocketEvent) (auth : GroupAuthContext)
    (context : TangleClientRateLimitContext) (now : UnixTimestamp) :
    ClientAnswer × RuntimeWorld σ :=
  match RelayEventContext.fromPocketEvent runtime.reads event with
  | .error error => (.replies (.error error), world)
  | .ok eventContext =>
    match (rateLimitEventPocket runtime.rateLimits event context now).run world.rateLimiter with
    | (some rejection, rateLimiter) => (.rateLimited rejection, { world with rateLimiter })
    | (none, rateLimiter) =>
      match (rateLimitGroupWritePocket runtime.rateLimits event context now runtime.groups).run
        rateLimiter with
      | (some rejection, rateLimiter) => (.rateLimited rejection, { world with rateLimiter })
      | (none, rateLimiter) =>
        { world with rateLimiter }.admitPocketEvent runtime event eventContext auth context now

/-- `handle_client_message_with_rate_limit_context` of an authentication. -/
def RuntimeWorld.handleAuth (event : PocketEvent) (connection : Nat)
    (context : TangleClientRateLimitContext) (now : UnixTimestamp) :
    ClientAnswer × RuntimeWorld σ :=
  let refused (error : BaseRelayError) : ClientAnswer :=
    .replies (.ok [.ok event.id false error.prefixedMessage])
  match validatePocketEventShape event runtime.relay.limits with
  | .error error => (refused error, world)
  | .ok () =>
    match (rateLimitAuthAttemptPocket runtime.rateLimits event context now).run
      world.rateLimiter with
    | (some rejection, rateLimiter) => (.rateLimited rejection, { world with rateLimiter })
    | (none, rateLimiter) =>
      match ((world.auths connection).authenticatePocket
        ⟨runtime.relay.pocket, runtime.reads.utf8Error⟩ event now) with
      | (.ok _, auth) =>
        (.replies (.ok [.ok event.id true ""]),
          { world with rateLimiter, auths := Function.update world.auths connection auth })
      | (.error error, _) =>
        match (rateLimitAuthFailurePocket runtime.rateLimits event context now).run
          rateLimiter with
        | (some rejection, rateLimiter) => (.rateLimited rejection, { world with rateLimiter })
        | (none, rateLimiter) => (refused error, { world with rateLimiter })

/-- What a request leaves in the limiter: nothing, when it is not valid, is closed for its search
or, for a count, for being broad. -/
def RuntimeWorld.limitQuery (scope : TangleRateLimitScope) (label : String)
    (rules : TangleQueryRateLimitConfig) (classification : TangleQueryClassification)
    (refused : Bool) (subscriptionId : SubscriptionId) (filters : List PocketFilter)
    (searchPresent : Bool) (auth : GroupAuthContext) (context : TangleClientRateLimitContext)
    (now : UnixTimestamp) : RuntimeWorld σ :=
  match runtime.requestLimits.validateSubscriptionId subscriptionId,
    runtime.requestLimits.validatePocketFilters filters with
  | .ok (), .ok () =>
    if searchPresent || refused then
      world
    else
      { world with
        rateLimiter := ((rateLimitAll subscriptionId label now
          (queryRateLimitKeys scope rules filters auth context classification)).run
            world.rateLimiter).2 }
  | _, _ => world

/-- `handle_client_message_with_rate_limit_context`, as far as messages are recorded. -/
def RuntimeWorld.handleClientMessage (arrival : ClientArrival) : ClientAnswer × RuntimeWorld σ :=
  let auth : GroupAuthContext := ⟨(world.auths arrival.connection).authenticatedPubkeys⟩
  match arrival.message with
  | .event event => world.handleEvent runtime event auth arrival.context arrival.now
  | .auth event =>
    world.handleAuth runtime event arrival.connection arrival.context arrival.now
  | .req subscriptionId filters searchPresent =>
    (.request, world.limitQuery runtime .req "req" runtime.rateLimits.req
      (runtime.requestLimits.classifyPocketQuery filters) false subscriptionId filters
      searchPresent auth arrival.context arrival.now)
  | .count subscriptionId filters searchPresent =>
    let classification :=
      runtime.requestLimits.classifyPocketCount runtime.reads.hyperloglogOffset filters
    (.request, world.limitQuery runtime .count "count" runtime.rateLimits.count classification
      classification.isBroad subscriptionId filters searchPresent auth arrival.context arrival.now)

end

/-- What happens at a runtime: a client's message, the removal of windows that are over, and what
else a session makes of the authentication of a connection, such as a new challenge. -/
inductive RuntimeCall where
  | message (arrival : ClientArrival)
  | retainActive (now : UnixTimestamp)
  | session (connection : Nat) (auth : BaseAuthState)

/-- The messages of a run with their answers. -/
def RuntimeWorld.run {σ : Type} (runtime : RelayRuntimeShared σ) (world : RuntimeWorld σ) :
    List RuntimeCall → List (ClientArrival × ClientAnswer)
  | [] => []
  | .message arrival :: calls =>
    let (answer, world) := world.handleClientMessage runtime arrival
    (arrival, answer) :: world.run runtime calls
  | .retainActive now :: calls =>
    let rateLimiter := (TangleRateLimiter.retainActive now world.rateLimiter).2
    { world with rateLimiter }.run runtime calls
  | .session connection auth :: calls =>
    { world with auths := Function.update world.auths connection auth }.run runtime calls

end Tangle
