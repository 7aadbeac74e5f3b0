import Tangle.Lib.Ordered
import Tangle.Groups.Policy
import Tangle.Pocket.Queries

/-!
# Requests and replies

The subscription ids, the limits that requests are held to, and the messages that answer them.
-/

namespace Tangle

/-! ## Numbers that stop at their largest value -/

/-- The largest `u64`, and the largest `usize`. -/
def u64Max : Nat := 2 ^ 64 - 1

/-- `saturating_add` of 64 bits. -/
def saturatingAdd (a b : Nat) : Nat :=
  min (a + b) u64Max

/-! ## Subscription ids -/

/-- What `SubscriptionId::new` accepts. -/
def IsSubscriptionId (value : Text) : Prop :=
  value.length ≠ 0 ∧ value.length ≤ 64

instance (value : Text) : Decidable (IsSubscriptionId value) :=
  inferInstanceAs (Decidable (_ ∧ _))

/-- `SubscriptionId`: a text that is neither empty nor longer than the protocol allows. -/
structure SubscriptionId where
  text : Text
  isSubscriptionId : IsSubscriptionId text
deriving DecidableEq

/-- A subscription is told by the text of its id. -/
theorem SubscriptionId.text_injective : Function.Injective SubscriptionId.text := by
  intro ⟨a, ha⟩ ⟨b, hb⟩ hab
  cases hab
  rfl

instance : LinearOrder SubscriptionId :=
  LinearOrder.lift' SubscriptionId.text SubscriptionId.text_injective

/-! ## Limits -/

/-- The limits of `BaseRelayLimits` that requests are held to. -/
structure BaseRelayRequestLimits where
  maxSubscriptionIdLength : Nat
  maxFiltersPerRequest : Nat
  maxTagValuesPerFilter : Nat
  maxQueryComplexity : Nat
  maxLimit : Nat
  defaultLimit : Nat
deriving DecidableEq

namespace BaseRelayRequestLimits

variable (limits : BaseRelayRequestLimits)

/-- `validate_subscription_id`: the id is no longer than the runtime allows. -/
def validateSubscriptionId (subscriptionId : SubscriptionId) : Except BaseRelayError Unit :=
  if subscriptionId.text.length > limits.maxSubscriptionIdLength then
    .error (.invalid
      s!"subscription id length exceeds runtime max_subid_length {limits.maxSubscriptionIdLength}")
  else
    .ok ()

/-- The number of values in the tags of a filter, their names left out. -/
def tagValueCount (filter : PocketFilter) : Nat :=
  (filter.tags.map fun tag => (tag.drop 1).length).sum

/-- `effective_pocket_filter_limit`: the filter's own limit, or the default where it has none. -/
def effectivePocketFilterLimit (filter : PocketFilter) : Nat :=
  if filter.limit = PocketFilter.noLimit then
    limits.defaultLimit
  else
    filter.limit.toNat

/-- `pocket_filter_complexity`: what the filter names is counted, and its limit added; no sum passes
the machine's largest number. -/
def pocketFilterComplexity (filter : PocketFilter) : Nat :=
  let tagScore := (filter.tags.map fun tag => saturatingAdd 1 (tag.drop 1).length).foldl
    saturatingAdd 0
  let ids := saturatingAdd 1 filter.ids.length
  let authors := saturatingAdd ids filter.authors.length
  let kinds := saturatingAdd authors filter.kinds.length
  let tags := saturatingAdd kinds tagScore
  let since := saturatingAdd tags (if filter.since ≠ PocketTime.min then 1 else 0)
  let «until» := saturatingAdd since (if filter.until ≠ PocketTime.max then 1 else 0)
  saturatingAdd «until» (limits.effectivePocketFilterLimit filter)

/-- `validate_pocket_query_complexity`: the filters together cost no more than the runtime
allows. -/
def validatePocketQueryComplexity (filters : List PocketFilter) : Except BaseRelayError Unit :=
  let score := (filters.map limits.pocketFilterComplexity).foldl saturatingAdd 0
  let max := limits.maxQueryComplexity
  if score > max then
    .error (.invalid s!"query complexity {score} exceeds runtime max_query_complexity {max}")
  else
    .ok ()

/-- The checks on one filter of a request. -/
def validatePocketFilter (filter : PocketFilter) : Except BaseRelayError Unit :=
  let max := limits.maxTagValuesPerFilter
  if tagValueCount filter > max then
    .error (.invalid
      s!"filter tag value count exceeds runtime max_tag_values_per_filter {max}")
  else if filter.limit ≠ PocketFilter.noLimit ∧ filter.limit.toNat > limits.maxLimit then
    .error (.invalid s!"filter limit exceeds runtime max_limit {limits.maxLimit}")
  else
    .ok ()

/-- `validate_pocket_filters`: there are filters and not too many, each is within the limits, and so
is what they cost together. -/
def validatePocketFilters (filters : List PocketFilter) : Except BaseRelayError Unit := do
  let max := limits.maxFiltersPerRequest
  if filters.isEmpty then
    .error (.invalid "request must include at least one filter")
  else if filters.length > max then
    .error (.invalid s!"filter count exceeds runtime max_filters_per_request {max}")
  else
    filters.forM limits.validatePocketFilter
    limits.validatePocketQueryComplexity filters

end BaseRelayRequestLimits

/-! ## Messages -/

/-- What clients are answered, events apart. -/
inductive RelayMessage where
  | eose (subscriptionId : SubscriptionId)
  | closed (subscriptionId : SubscriptionId) (message : String)
  | count (subscriptionId : SubscriptionId) (count : Nat) (hll : Option String)
  | ok (eventId : EventId) (accepted : Bool) (message : String)
  | auth (challenge : Text)
deriving DecidableEq

/-- A message to a client: an event in the store's format, or another message. -/
inductive RuntimeRelayMessage where
  | event (subscriptionId : SubscriptionId) (event : PocketEvent)
  | relay (message : RelayMessage)
deriving DecidableEq

/-- The event of a message and the subscription it is for. -/
def RuntimeRelayMessage.delivered? : RuntimeRelayMessage → Option (SubscriptionId × PocketEvent)
  | .event subscriptionId carried => some (subscriptionId, carried)
  | .relay _ => none

/-- The events that messages carry, with the subscriptions they are for. -/
def delivered (messages : List RuntimeRelayMessage) : List (SubscriptionId × PocketEvent) :=
  messages.filterMap RuntimeRelayMessage.delivered?

namespace BaseRelayError

/-- `BaseRelayError::auth_required`. -/
def authRequired (message : String) : BaseRelayError :=
  ⟨"auth-required", message⟩

/-- `BaseRelayError::restricted`. -/
def restricted (message : String) : BaseRelayError :=
  ⟨"restricted", message⟩

end BaseRelayError

namespace BaseRelay

/-- `unsupported_search_present_closed`: a request that searches is closed. -/
def unsupportedSearchPresentClosed (subscriptionId : SubscriptionId) (searchPresent : Bool) :
    Option RelayMessage :=
  if searchPresent then
    some (.closed subscriptionId "unsupported: search filters are not supported")
  else
    none

/-- `redacted_req_closed`: a reader without a key is asked to authenticate, any other is told that
access is restricted. -/
def redactedReqClosed (subscriptionId : SubscriptionId) (auth : GroupAuthContext) : RelayMessage :=
  if auth.authenticatedPubkeys.isEmpty then
    .closed subscriptionId
      (BaseRelayError.authRequired "authentication required to read group events").prefixedMessage
  else
    .closed subscriptionId (BaseRelayError.restricted "group is unavailable").prefixedMessage

end BaseRelay

end Tangle
