import Mathlib.Logic.Function.Basic
import Tangle.Relay.Requests

/-!
# Rate limits

A limiter counts the hits of each key in a window of time. A request is recorded under the keys of
its peer, its connection, its authenticated keys, the groups and the kinds its filters name, and,
when its filters are broad, under one key for all broad requests; the first key whose window is full
refuses the request.
-/

namespace Tangle

/-! ## The limiter -/

/-- The address of a peer. -/
inductive IpAddr where
  | v4 (octets : BitVec 32)
  | v6 (segments : BitVec 128)
deriving DecidableEq

/-- `TangleRateLimitScope`: what kind of message a limit counts. -/
inductive TangleRateLimitScope where
  | auth | event | groupWrite | req | count
deriving DecidableEq

/-- `TangleRateLimitQueryClass`. -/
inductive TangleRateLimitQueryClass where
  | broad
deriving DecidableEq

/-- `TangleRateLimitKey`: whose messages one entry of the limiter counts. -/
inductive TangleRateLimitKey where
  | ip (scope : TangleRateLimitScope) (ip : IpAddr)
  | pubkey (scope : TangleRateLimitScope) (pubkey : PublicKeyHex)
  | group (scope : TangleRateLimitScope) (groupId : GroupId)
  | kind (scope : TangleRateLimitScope) (kind : Nat)
  | authFailure (ip : Option IpAddr) (pubkey : Option PublicKeyHex)
  | joinFlowIp (groupId : GroupId) (ip : IpAddr)
  | joinFlow (groupId : GroupId) (pubkey : PublicKeyHex)
  | connection (scope : TangleRateLimitScope) (connectionId : Nat)
  | queryClass (scope : TangleRateLimitScope) (queryClass : TangleRateLimitQueryClass)
deriving DecidableEq

/-- How many hits a window takes. -/
structure TangleRateLimitRule where
  windowSeconds : Nat
  maxHits : Nat
  windowSeconds_pos : 0 < windowSeconds
  maxHits_pos : 0 < maxHits

namespace TangleRateLimitRule

/-- `TangleRateLimitRule::new`: a rule with no window or no hits is refused. -/
def new (windowSeconds maxHits : Nat) : Except BaseRelayError TangleRateLimitRule :=
  if hwindow : windowSeconds = 0 then
    .error (.invalid "rate limit window seconds must be greater than zero")
  else if hhits : maxHits = 0 then
    .error (.invalid "rate limit max hits must be greater than zero")
  else
    .ok ⟨windowSeconds, maxHits, Nat.pos_of_ne_zero hwindow, Nat.pos_of_ne_zero hhits⟩

/-- The second at which a window begun now is over. -/
def resetAt (rule : TangleRateLimitRule) (now : UnixTimestamp) : UnixTimestamp :=
  saturatingAdd now rule.windowSeconds

end TangleRateLimitRule

/-- `TangleRateLimitDecision`: whether a message is let through, how many more may follow it, and
when the window ends. -/
inductive TangleRateLimitDecision where
  | allowed (remaining : Nat) (resetAt : UnixTimestamp)
  | rejected (resetAt : UnixTimestamp)
deriving DecidableEq

/-- `TangleRateLimitEntry`: the window that a key is in and the hits counted in it. -/
structure TangleRateLimitEntry where
  resetAt : UnixTimestamp
  hits : Nat
deriving DecidableEq

namespace TangleRateLimitEntry

/-- `TangleRateLimitEntry::new`: a window begins with no hit. -/
def new (rule : TangleRateLimitRule) (now : UnixTimestamp) : TangleRateLimitEntry :=
  ⟨rule.resetAt now, 0⟩

/-- `reset_if_expired`: a window that is over gives way to one that begins now. -/
def resetIfExpired (entry : TangleRateLimitEntry) (rule : TangleRateLimitRule)
    (now : UnixTimestamp) : TangleRateLimitEntry :=
  if entry.resetAt ≤ now then new rule now else entry

end TangleRateLimitEntry

/-- The windows that are open, by their keys. -/
structure TangleRateLimiter where
  entries : TangleRateLimitKey → Option TangleRateLimitEntry

namespace TangleRateLimiter

/-- `TangleRateLimiter::new`: no key has been seen. -/
def new : TangleRateLimiter :=
  ⟨fun _ => none⟩

/-- Takes a hit of a key, if its window is not full. -/
def record (key : TangleRateLimitKey) (rule : TangleRateLimitRule) (now : UnixTimestamp) :
    StateM TangleRateLimiter TangleRateLimitDecision := fun limiter =>
  let entry := match limiter.entries key with
    | some entry => entry.resetIfExpired rule now
    | none => .new rule now
  if rule.maxHits ≤ entry.hits then
    (.rejected entry.resetAt, ⟨Function.update limiter.entries key (some entry)⟩)
  else
    let hits := saturatingAdd entry.hits 1
    (.allowed (rule.maxHits - hits) entry.resetAt,
      ⟨Function.update limiter.entries key (some { entry with hits })⟩)

end TangleRateLimiter

/-! ## Broad requests -/

/-- `TangleBroadQueryReason`: what makes a query broad. -/
inductive TangleBroadQueryReason where
  | emptyFilters | missingPrimaryConstraint | missingBoundedSelector | highLimit | broadTimeWindow
deriving DecidableEq

/-- `TangleQueryClassification`. -/
inductive TangleQueryClassification where
  | bounded
  | broad (reason : TangleBroadQueryReason)
deriving DecidableEq

/-- `is_broad`. -/
def TangleQueryClassification.isBroad : TangleQueryClassification → Bool
  | .bounded => false
  | .broad _ => true

/-- `BROAD_QUERY_TIME_WINDOW_SECONDS`: thirty-one days. -/
def broadQueryTimeWindowSeconds : Nat := 31 * 24 * 60 * 60

/-- Whether a tag of a filter is named `h` or `d`. -/
def isGroupTag (tag : List TagValue) : Bool :=
  tag.head? == some (.text "h".toList) || tag.head? == some (.text "d".toList)

namespace BaseRelayRequestLimits

variable (limits : BaseRelayRequestLimits) (filter : PocketFilter)

/-- `has_pocket_group_constraint`: a tag of a group has a value. -/
def hasPocketGroupConstraint : Bool :=
  filter.tags.any fun tag => isGroupTag tag && (tag.drop 1).head?.isSome

/-- `has_pocket_primary_constraint`: the filter names ids, authors, kinds or a group. -/
def hasPocketPrimaryConstraint : Bool :=
  !filter.ids.isEmpty || !filter.authors.isEmpty || !filter.kinds.isEmpty ||
    hasPocketGroupConstraint filter

/-- `has_pocket_strong_constraint`: it names ids, authors or a group. -/
def hasPocketStrongConstraint : Bool :=
  !filter.ids.isEmpty || !filter.authors.isEmpty || hasPocketGroupConstraint filter

/-- `has_pocket_high_limit`: its limit is the largest that the relay allows. -/
def hasPocketHighLimit : Bool :=
  limits.maxLimit ≤ limits.effectivePocketFilterLimit filter

/-- `has_pocket_broad_time_window`: both ends are given, and further apart than the bound. -/
def hasPocketBroadTimeWindow : Bool :=
  filter.since ≠ PocketTime.min ∧ filter.until ≠ PocketTime.max ∧
    broadQueryTimeWindowSeconds < filter.until - filter.since

/-- `classify_pocket_query_filter`: the reasons are tried in the order of the source. -/
def classifyPocketQueryFilter : TangleQueryClassification :=
  if !hasPocketPrimaryConstraint filter then
    .broad .missingPrimaryConstraint
  else if limits.hasPocketHighLimit filter then
    .broad .highLimit
  else if hasPocketBroadTimeWindow filter && !hasPocketStrongConstraint filter then
    .broad .broadTimeWindow
  else
    .bounded

/-- `classify_pocket_query`: the first broad filter decides. -/
def classifyPocketQuery (filters : List PocketFilter) : TangleQueryClassification :=
  if filters.isEmpty then
    .broad .emptyFilters
  else
    ((filters.map limits.classifyPocketQueryFilter).find?
      TangleQueryClassification.isBroad).getD .bounded

end BaseRelayRequestLimits

/-! ## The limits of requests -/

/-- `TangleQueryRateLimitConfig`: the rules for queries by address, connection, key, group and kind,
and one more for those that are broad. -/
structure TangleQueryRateLimitConfig where
  perIp : TangleRateLimitRule
  perConnection : TangleRateLimitRule
  perPubkey : TangleRateLimitRule
  perGroup : TangleRateLimitRule
  perKind : TangleRateLimitRule
  broad : TangleRateLimitRule

/-- Where a message comes from. -/
structure TangleClientRateLimitContext where
  peerIp : Option IpAddr
  connectionId : Option Nat

/-- The groups that the tags of filters name. -/
def pocketFilterGroupIds (filters : List PocketFilter) : List GroupId :=
  let values := (filters.flatMap PocketFilter.tags).flatMap fun tag =>
    if isGroupTag tag then tag.drop 1 else []
  let groupIds := values.filterMap fun value =>
    match value with
    | .text value => (GroupId.new value).toOption
    | .raw _ => none
  (Std.ExtTreeSet.ofList groupIds compare : BTreeSet GroupId).toList

/-- The kinds that the filters of a query name, each once. -/
def pocketFilterKinds (filters : List PocketFilter) : List Nat :=
  (Std.ExtTreeSet.ofList (filters.flatMap fun filter => filter.kinds.map UInt16.toNat) compare :
    BTreeSet Nat).toList

/-- `BaseRelayError::rate_limited`. -/
def BaseRelayError.rateLimited (message : String) : BaseRelayError :=
  ⟨"rate-limited", message⟩

/-- Records a request under one key; a full window closes the request. -/
def rateLimitClosed (subscriptionId : SubscriptionId) (label dimension : String)
    (now : UnixTimestamp) (key : TangleRateLimitKey) (rule : TangleRateLimitRule) :
    StateM TangleRateLimiter (Option RelayMessage) := do
  match ← TangleRateLimiter.record key rule now with
  | .allowed _ _ => return none
  | .rejected resetAt =>
    return some (.closed subscriptionId (BaseRelayError.rateLimited
      s!"{label} {dimension} rate limit exceeded until {resetAt}").prefixedMessage)

/-- Records a request under one key after another, until a window is full. -/
def rateLimitAll (subscriptionId : SubscriptionId) (label : String) (now : UnixTimestamp) :
    List (String × TangleRateLimitKey × TangleRateLimitRule) →
      StateM TangleRateLimiter (Option RelayMessage)
  | [] => return none
  | (dimension, key, rule) :: rest => do
    match ← rateLimitClosed subscriptionId label dimension now key rule with
    | some message => return some message
    | none => rateLimitAll subscriptionId label now rest

/-- The keys that a request is recorded under, in their order, with their rules. -/
def queryRateLimitKeys (scope : TangleRateLimitScope) (rules : TangleQueryRateLimitConfig)
    (filters : List PocketFilter) (auth : GroupAuthContext)
    (context : TangleClientRateLimitContext) (queryClassification : TangleQueryClassification) :
    List (String × TangleRateLimitKey × TangleRateLimitRule) :=
  (context.peerIp.toList.map fun ip => ("ip", .ip scope ip, rules.perIp)) ++
    (context.connectionId.toList.map fun id =>
      ("connection", .connection scope id, rules.perConnection)) ++
    (auth.authenticatedPubkeys.toList.map fun pubkey =>
      ("pubkey", .pubkey scope pubkey, rules.perPubkey)) ++
    ((pocketFilterGroupIds filters).map fun groupId =>
      ("group", .group scope groupId, rules.perGroup)) ++
    ((pocketFilterKinds filters).map fun kind => ("kind", .kind scope kind, rules.perKind)) ++
    if queryClassification.isBroad then
      [("broad", .queryClass scope .broad, rules.broad)]
    else
      []

/-- `rate_limit_req_pocket`: a REQ is recorded under each of its keys in turn, and closed when a
window is full. -/
def rateLimitReqPocket (limits : BaseRelayRequestLimits) (rules : TangleQueryRateLimitConfig)
    (subscriptionId : SubscriptionId) (filters : List PocketFilter) (auth : GroupAuthContext)
    (context : TangleClientRateLimitContext) (now : UnixTimestamp) :
    StateM TangleRateLimiter (Option RelayMessage) :=
  rateLimitAll subscriptionId "req" now
    (queryRateLimitKeys .req rules filters auth context (limits.classifyPocketQuery filters))

/-- A request that the rate limits refuse is closed. -/
theorem closed_of_rateLimitAll {subscriptionId : SubscriptionId} {label : String}
    {now : UnixTimestamp} {keys : List (String × TangleRateLimitKey × TangleRateLimitRule)}
    {limiter : TangleRateLimiter} {message : RelayMessage}
    (h : ((rateLimitAll subscriptionId label now keys).run limiter).1 = some message) :
    ∃ text, message = .closed subscriptionId text := by
  induction keys generalizing limiter with
  | nil => cases h
  | cons head rest ih =>
    obtain ⟨dimension, key, rule⟩ := head
    rw [rateLimitAll, StateT.run_bind] at h
    unfold rateLimitClosed at h
    rw [StateT.run_bind] at h
    rcases hrecord : (TangleRateLimiter.record key rule now).run limiter with ⟨decision, limiter'⟩
    rw [hrecord] at h
    cases decision with
    | allowed remaining resetAt => exact ih h
    | rejected resetAt =>
      cases h
      exact ⟨_, rfl⟩

end Tangle
