import Tangle.Relay.PlainReads
import Tangle.Relay.QueryResults

/-!
# The limits of a configuration

A configuration is read twice: as a document, whose numbers must be positive and consistent, and as
the limits of the relay, which are checked again. Both compare the default limit with the largest
limit, and the relay compares it with the complexity that a query may have. The complexity of a
filter is the default limit and at least one unit more, and the limit must fit 32 bits when the
search is made; a configuration that is accepted may leave no room for that
(`default_query_admitted_iff`).
-/

namespace Tangle

/-- The section `limits` of a configuration. -/
structure BaseRelayRuntimeLimitsDocument where
  maxMessageLength : UInt64
  maxSubidLength : UInt64
  maxSubscriptionsPerConnection : UInt64
  maxFiltersPerRequest : UInt64
  maxTagValuesPerFilter : UInt64
  maxQueryComplexity : UInt64
  maxLimit : UInt64
  defaultLimit : UInt64
  maxEventTags : UInt64
  maxContentLength : UInt64
  broadcastChannelCapacity : UInt64
  perConnectionOutboundQueue : UInt64
deriving DecidableEq

/-- A section that has been accepted. -/
structure BaseRelayRuntimeLimitsConfig extends BaseRelayRuntimeLimitsDocument

/-- `BaseRelayLimitSettings`: the ten numbers that a runtime is limited by. -/
structure BaseRelayLimitSettings where
  maxPendingEvents : UInt64
  maxSubscriptionIdLength : UInt64
  maxSubscriptions : UInt64
  maxFiltersPerRequest : UInt64
  maxTagValuesPerFilter : UInt64
  maxQueryComplexity : UInt64
  maxEventTags : UInt64
  maxContentLength : UInt64
  maxLimit : UInt64
  defaultLimit : UInt64
deriving DecidableEq

/-- All of `BaseRelayLimits`, the limits that requests are held to and those of events. -/
structure BaseRelayAllLimits extends BaseRelayLimitSettings

/-- A number of the configuration that is not to be zero. -/
def requireAboveZero (field : String) (value : UInt64) : Except BaseRelayError Unit :=
  if value = 0 then .error (.invalid s!"{field} must be greater than zero") else .ok ()

/-- `BaseRelayRuntimeLimitsConfig::from_document`: no number is zero, an id of a subscription is no
longer than the protocol allows, and the default limit is within the largest. -/
def BaseRelayRuntimeLimitsConfig.fromDocument (document : BaseRelayRuntimeLimitsDocument) :
    Except BaseRelayError BaseRelayRuntimeLimitsConfig := do
  requireAboveZero "limits.max_message_length" document.maxMessageLength
  requireAboveZero "limits.max_subid_length" document.maxSubidLength
  requireAboveZero "limits.max_subscriptions_per_connection"
    document.maxSubscriptionsPerConnection
  requireAboveZero "limits.max_filters_per_request" document.maxFiltersPerRequest
  requireAboveZero "limits.max_tag_values_per_filter" document.maxTagValuesPerFilter
  requireAboveZero "limits.max_query_complexity" document.maxQueryComplexity
  requireAboveZero "limits.max_limit" document.maxLimit
  requireAboveZero "limits.default_limit" document.defaultLimit
  requireAboveZero "limits.max_event_tags" document.maxEventTags
  requireAboveZero "limits.max_content_length" document.maxContentLength
  requireAboveZero "limits.broadcast_channel_capacity" document.broadcastChannelCapacity
  requireAboveZero "limits.per_connection_outbound_queue" document.perConnectionOutboundQueue
  if document.maxSubidLength > 64 then
    .error (.invalid "limits.max_subid_length must be less than or equal to 64")
  else if document.defaultLimit > document.maxLimit then
    .error (.invalid "limits.default_limit must be less than or equal to limits.max_limit")
  else
    .ok ⟨document⟩

namespace BaseRelayAllLimits

/-- `BaseRelayLimits::new`: the same of the runtime's numbers, and the default limit must be within
the largest complexity of a query. -/
def new (settings : BaseRelayLimitSettings) : Except BaseRelayError BaseRelayAllLimits := do
  requireAboveZero "runtime max pending events" settings.maxPendingEvents
  requireAboveZero "runtime max subscription id length" settings.maxSubscriptionIdLength
  requireAboveZero "runtime max subscriptions per connection" settings.maxSubscriptions
  requireAboveZero "runtime max filters per request" settings.maxFiltersPerRequest
  requireAboveZero "runtime max tag values per filter" settings.maxTagValuesPerFilter
  requireAboveZero "runtime max query complexity" settings.maxQueryComplexity
  requireAboveZero "runtime max event tags" settings.maxEventTags
  requireAboveZero "runtime max content length" settings.maxContentLength
  requireAboveZero "runtime max filter limit" settings.maxLimit
  requireAboveZero "runtime default filter limit" settings.defaultLimit
  if settings.defaultLimit > settings.maxLimit then
    .error (.invalid "runtime default filter limit must not exceed max filter limit")
  else if settings.defaultLimit > settings.maxQueryComplexity then
    .error (.invalid "runtime default filter limit must not exceed max query complexity")
  else
    .ok ⟨settings⟩

/-- The limits that requests are held to. -/
def requests (limits : BaseRelayAllLimits) : BaseRelayRequestLimits where
  maxSubscriptionIdLength := limits.maxSubscriptionIdLength.toNat
  maxFiltersPerRequest := limits.maxFiltersPerRequest.toNat
  maxTagValuesPerFilter := limits.maxTagValuesPerFilter.toNat
  maxQueryComplexity := limits.maxQueryComplexity.toNat
  maxLimit := limits.maxLimit.toNat
  defaultLimit := limits.defaultLimit.toNat

end BaseRelayAllLimits

/-- `base_relay_limits`: the configured numbers as the runtime's own, which are checked again. -/
def BaseRelayRuntimeLimitsConfig.baseRelayLimits (config : BaseRelayRuntimeLimitsConfig) :
    Except BaseRelayError BaseRelayAllLimits :=
  BaseRelayAllLimits.new {
    maxPendingEvents := config.perConnectionOutboundQueue
    maxSubscriptionIdLength := config.maxSubidLength
    maxSubscriptions := config.maxSubscriptionsPerConnection
    maxFiltersPerRequest := config.maxFiltersPerRequest
    maxTagValuesPerFilter := config.maxTagValuesPerFilter
    maxQueryComplexity := config.maxQueryComplexity
    maxEventTags := config.maxEventTags
    maxContentLength := config.maxContentLength
    maxLimit := config.maxLimit
    defaultLimit := config.defaultLimit }

/-! ## Accepted limits -/

/-- A number above zero is one that is not zero. -/
theorem requireAboveZero_eq_ok {field : String} {value : UInt64} {u : Unit} :
    requireAboveZero field value = .ok u ↔ value ≠ 0 := by
  unfold requireAboveZero
  split
  · next h => simp [h]
  · next h => simp [h]

/-- What is accepted is what the document says. -/
theorem BaseRelayRuntimeLimitsConfig.document_of_fromDocument
    {document : BaseRelayRuntimeLimitsDocument} {config : BaseRelayRuntimeLimitsConfig}
    (h : fromDocument document = .ok config) :
    document = config.toBaseRelayRuntimeLimitsDocument := by
  unfold fromDocument at h
  iterate 12 obtain ⟨_, _, h⟩ := Except.bind_eq_ok.mp h
  split at h
  · cases h
  · split at h
    · cases h
    · cases h
      rfl

/-- What the checks of the limits leave true. -/
theorem BaseRelayAllLimits.accepted {settings : BaseRelayLimitSettings}
    {limits : BaseRelayAllLimits}
    (h : BaseRelayAllLimits.new settings = .ok limits) :
    limits.toBaseRelayLimitSettings = settings ∧ settings.maxFiltersPerRequest ≠ 0 ∧
      settings.maxTagValuesPerFilter ≠ 0 := by
  unfold BaseRelayAllLimits.new at h
  obtain ⟨_, _, h⟩ := Except.bind_eq_ok.mp h
  obtain ⟨_, _, h⟩ := Except.bind_eq_ok.mp h
  obtain ⟨_, _, h⟩ := Except.bind_eq_ok.mp h
  obtain ⟨_, hfilters, h⟩ := Except.bind_eq_ok.mp h
  obtain ⟨_, hvalues, h⟩ := Except.bind_eq_ok.mp h
  obtain ⟨_, _, h⟩ := Except.bind_eq_ok.mp h
  obtain ⟨_, _, h⟩ := Except.bind_eq_ok.mp h
  obtain ⟨_, _, h⟩ := Except.bind_eq_ok.mp h
  obtain ⟨_, _, h⟩ := Except.bind_eq_ok.mp h
  obtain ⟨_, _, h⟩ := Except.bind_eq_ok.mp h
  refine ⟨?_, requireAboveZero_eq_ok.mp hfilters, requireAboveZero_eq_ok.mp hvalues⟩
  split at h
  · cases h
  · split at h
    · cases h
    · cases h
      rfl

/-! ## The complexity of a filter -/

/-- Sums that stop at the machine's largest number stop where the plain sum does, whatever stopped
before. -/
theorem saturatingAdd_min (a b : Nat) : saturatingAdd (min a u64Max) b = min (a + b) u64Max := by
  unfold saturatingAdd
  omega

/-- The same where both numbers have been stopped before. -/
theorem saturatingAdd_min_min (a b : Nat) :
    saturatingAdd (min a u64Max) (min b u64Max) = min (a + b) u64Max := by
  unfold saturatingAdd
  omega

/-- A sum that stops at the largest number is the sum, or that number. -/
theorem foldl_saturatingAdd (values : List Nat) (start : Nat) :
    values.foldl saturatingAdd (min start u64Max) = min (start + values.sum) u64Max := by
  induction values generalizing start with
  | nil => simp
  | cons value rest ih =>
    rw [List.foldl_cons, saturatingAdd_min, ih, List.sum_cons, Nat.add_assoc]

namespace BaseRelayRequestLimits

variable {limits : BaseRelayRequestLimits} {filter : PocketFilter}

/-- What a filter costs, its limit apart. -/
def ownCost (filter : PocketFilter) : Nat :=
  1 + filter.ids.length + filter.authors.length + filter.kinds.length +
    (filter.tags.map fun tag => 1 + (tag.drop 1).length).sum +
    (if filter.since ≠ PocketTime.min then 1 else 0) +
    (if filter.until ≠ PocketTime.max then 1 else 0)

/-- A filter costs at least one before its limit is counted. -/
theorem one_le_ownCost (filter : PocketFilter) : 1 ≤ ownCost filter := by
  unfold ownCost
  omega

/-- The complexity of a filter is what it costs and its limit, as far as 64 bits go. -/
theorem pocketFilterComplexity_eq : limits.pocketFilterComplexity filter =
    min (ownCost filter + limits.effectivePocketFilterLimit filter) u64Max := by
  have hone (a b : Nat) : saturatingAdd a b = min (a + b) u64Max := rfl
  have htags : (filter.tags.map fun tag => saturatingAdd 1 (tag.drop 1).length).foldl
      saturatingAdd 0 =
        min (filter.tags.map fun tag => min (1 + (tag.drop 1).length) u64Max).sum u64Max := by
    have h := foldl_saturatingAdd (filter.tags.map fun tag => saturatingAdd 1 (tag.drop 1).length) 0
    rw [Nat.zero_min, Nat.zero_add] at h
    exact h
  have hsum : ∀ tags : List (List TagValue),
      min (tags.map fun tag => min (1 + (tag.drop 1).length) u64Max).sum u64Max =
        min (tags.map fun tag => 1 + (tag.drop 1).length).sum u64Max := by
    intro tags
    induction tags with
    | nil => rfl
    | cons tag rest ih =>
      simp only [List.map_cons, List.sum_cons]
      omega
  unfold pocketFilterComplexity ownCost
  dsimp only
  rw [htags, hsum, hone 1, saturatingAdd_min, saturatingAdd_min, saturatingAdd_min_min,
    saturatingAdd_min, saturatingAdd_min, saturatingAdd_min]

/-- **A filter is within the limits exactly when** it has few enough tag values and its explicit
limit, if it has one, is within the largest. -/
theorem validatePocketFilter_eq_ok : limits.validatePocketFilter filter = .ok () ↔
    tagValueCount filter ≤ limits.maxTagValuesPerFilter ∧
      (filter.limit ≠ PocketFilter.noLimit → filter.limit.toNat ≤ limits.maxLimit) := by
  unfold validatePocketFilter
  dsimp only
  split
  · next hmany =>
    simp only [reduceCtorEq, false_iff, not_and]
    omega
  · next hfew =>
    have hfew := Nat.le_of_not_lt hfew
    split
    · next hhigh =>
      simp only [reduceCtorEq, false_iff, not_and, Classical.not_imp, Nat.not_le]
      exact fun _ => hhigh
    · next hlow =>
      simp only [not_and, Nat.not_lt] at hlow
      simp only [true_iff]
      exact ⟨hfew, hlow⟩

/-- **Filters are within the limits exactly when** there are some and few enough, each is, and their
costs together are within the largest complexity. -/
theorem validatePocketFilters_eq_ok {filters : List PocketFilter} :
    limits.validatePocketFilters filters = .ok () ↔
      filters ≠ [] ∧ filters.length ≤ limits.maxFiltersPerRequest ∧
        (∀ filter ∈ filters, limits.validatePocketFilter filter = .ok ()) ∧
        min (filters.map limits.pocketFilterComplexity).sum u64Max ≤ limits.maxQueryComplexity := by
  have hscore := foldl_saturatingAdd (filters.map limits.pocketFilterComplexity) 0
  rw [Nat.zero_min, Nat.zero_add] at hscore
  unfold validatePocketFilters validatePocketQueryComplexity
  dsimp only
  rw [hscore]
  split
  · next hempty =>
    simp [List.isEmpty_iff.mp hempty]
  · next hsome =>
    have hsome : filters ≠ [] := fun hnil => hsome (List.isEmpty_iff.mpr hnil)
    split
    · next hmany =>
      simp only [reduceCtorEq, false_iff, not_and]
      omega
    · next hfew =>
      rw [Except.bind_eq_ok]
      have hall : filters.forM limits.validatePocketFilter = .ok () ↔
          ∀ filter ∈ filters, limits.validatePocketFilter filter = .ok () := Except.forM_eq_ok
      simp only [exists_const, hall]
      split
      · next hcomplex =>
        simp only [reduceCtorEq, and_false, false_iff, not_and]
        omega
      · next hsimple =>
        simp only [and_true]
        exact ⟨fun h => ⟨hsome, Nat.le_of_not_lt hfew, h, Nat.le_of_not_lt hsimple⟩,
          fun h => h.2.2.1⟩

end BaseRelayRequestLimits

/-! ## Queries without a limit -/

/-- A filter without a limit, with at most one kind, author or tag value and nothing else. -/
structure PocketFilter.IsDefaultQuery (filter : PocketFilter) : Prop where
  limit : filter.limit = PocketFilter.noLimit
  ids : filter.ids = []
  since : filter.since = PocketTime.min
  «until» : filter.until = PocketTime.max
  named : ∀ tag ∈ filter.tags, tag.drop 1 ≠ []
  one : filter.kinds.length + filter.authors.length +
    BaseRelayRequestLimits.tagValueCount filter ≤ 1

/-- Pocket takes a filter whatever its limit is, and the filter that has no parts. -/
structure PocketReads.IgnoresLimit (reads : PocketReads) : Prop where
  relimited : ∀ (filter : PocketFilter) (limit : UInt32),
    reads.refusesFilter { filter with limit } = reads.refusesFilter filter
  empty : reads.refusesFilter ⟨[], [], [], [], PocketTime.min, PocketTime.max,
    PocketFilter.noLimit⟩ = none

/-- The request passes its checks, and each of its filters gets the limit for its search. -/
def RelayServices.Admits (services : RelayServices) (filters : List PocketFilter) : Prop :=
  services.limits.validatePocketFilters filters = .ok () ∧
    ∀ filter ∈ filters, (services.pocketFilterWithLimitMode filter .applyDefaultLimit).Succeeds

section
variable {services : RelayServices} {filter : PocketFilter}

/-- A filter that has no limit gets the default limit, which must fit 32 bits. -/
theorem default_lt_of_succeeds (hnone : filter.limit = PocketFilter.noLimit)
    (h : (services.pocketFilterWithLimitMode filter .applyDefaultLimit).Succeeds) :
    services.limits.defaultLimit < 2 ^ 32 := by
  unfold RelayServices.pocketFilterWithLimitMode at h
  dsimp only at h
  rw [if_pos hnone] at h
  by_contra hlarge
  rw [if_neg hlarge] at h
  exact Except.not_succeeds_error _ h

/-- A filter without a limit of its own is searched under the default limit, if that fits the
database's numbers. -/
theorem succeeds_of_default_lt (hreads : services.reads.IgnoresLimit)
    (hnone : filter.limit = PocketFilter.noLimit)
    (htaken : services.reads.refusesFilter filter = none)
    (hfits : services.limits.defaultLimit < 2 ^ 32) :
    (services.pocketFilterWithLimitMode filter .applyDefaultLimit).Succeeds := by
  have htaken' := (hreads.relimited filter (UInt32.ofNat services.limits.defaultLimit)).trans htaken
  unfold RelayServices.pocketFilterWithLimitMode
  dsimp only
  rw [if_pos hnone, if_pos hfits]
  exact ⟨_, newFilter_withLimit htaken'⟩

/-- The complexity of a filter without a limit is what it costs and the default limit. -/
theorem complexity_of_noLimit {limits : BaseRelayRequestLimits}
    (hnone : filter.limit = PocketFilter.noLimit) : limits.pocketFilterComplexity filter =
      min (BaseRelayRequestLimits.ownCost filter + limits.defaultLimit) u64Max := by
  have heffective : limits.effectivePocketFilterLimit filter = limits.defaultLimit := if_pos hnone
  rw [BaseRelayRequestLimits.pocketFilterComplexity_eq, heffective]

/-- A request is admitted only when there is room for the default limit of each of its filters that
has no limit. -/
theorem room_of_admits {filters : List PocketFilter} (h : services.Admits filters)
    (hmem : filter ∈ filters) (hnone : filter.limit = PocketFilter.noLimit) :
    services.limits.defaultLimit < 2 ^ 32 ∧
      min (BaseRelayRequestLimits.ownCost filter + services.limits.defaultLimit) u64Max ≤
        services.limits.maxQueryComplexity := by
  obtain ⟨hvalid, hmodes⟩ := h
  obtain ⟨_, _, _, hscore⟩ := BaseRelayRequestLimits.validatePocketFilters_eq_ok.mp hvalid
  have hle : services.limits.pocketFilterComplexity filter ≤
      (filters.map services.limits.pocketFilterComplexity).sum :=
    List.le_sum_of_mem (List.mem_map_of_mem hmem)
  rw [complexity_of_noLimit hnone] at hle
  exact ⟨default_lt_of_succeeds hnone (hmodes filter hmem), by omega⟩

/-- With room for the default limit a filter that has no limit is admitted. -/
theorem admits_of_room (hreads : services.reads.IgnoresLimit)
    (hnone : filter.limit = PocketFilter.noLimit)
    (htaken : services.reads.refusesFilter filter = none)
    (hfilters : 1 ≤ services.limits.maxFiltersPerRequest)
    (hvalues : BaseRelayRequestLimits.tagValueCount filter ≤ services.limits.maxTagValuesPerFilter)
    (hroom : BaseRelayRequestLimits.ownCost filter + services.limits.defaultLimit ≤
      services.limits.maxQueryComplexity) (hfits : services.limits.defaultLimit < 2 ^ 32) :
    services.Admits [filter] := by
  constructor
  · refine BaseRelayRequestLimits.validatePocketFilters_eq_ok.mpr ⟨by simp, by simpa, ?_, ?_⟩
    · intro other hother
      cases List.mem_singleton.mp hother
      exact BaseRelayRequestLimits.validatePocketFilter_eq_ok.mpr
        ⟨hvalues, fun hsome => absurd hnone hsome⟩
    · simp only [List.map_cons, List.map_nil, List.sum_singleton, complexity_of_noLimit hnone]
      omega
  · intro other hother
    cases List.mem_singleton.mp hother
    exact succeeds_of_default_lt hreads hnone htaken hfits

/-- A filter that names at most one thing costs at most three units. -/
theorem PocketFilter.IsDefaultQuery.ownCost_le (h : filter.IsDefaultQuery) :
    BaseRelayRequestLimits.ownCost filter ≤ 3 := by
  have htags : ∀ tags : List (List TagValue), (∀ tag ∈ tags, tag.drop 1 ≠ []) →
      (tags.map fun tag => 1 + (tag.drop 1).length).sum ≤
        2 * (tags.map fun tag => (tag.drop 1).length).sum := by
    intro tags
    induction tags with
    | nil => simp
    | cons tag rest ih =>
      intro hnamed
      have hpos := List.length_pos_iff.mpr (hnamed tag (List.mem_cons_self ..))
      have hrest := ih fun other hother => hnamed other (List.mem_cons_of_mem _ hother)
      simp only [List.map_cons, List.sum_cons]
      omega
  have htags := htags filter.tags h.named
  have hone := h.one
  unfold BaseRelayRequestLimits.tagValueCount at hone
  simp only [BaseRelayRequestLimits.ownCost, h.ids, h.since, h.until, List.length_nil, ne_eq,
    not_true_eq_false, if_false]
  omega

end

/-- **When an accepted configuration admits a query without a limit.** It does exactly when the
default limit leaves room for what the filter costs itself, which is at least one unit and for a
query of at most one kind, author or tag value at most three, and fits 32 bits. Some query without a
limit is admitted exactly when there is room for one unit. -/
theorem default_query_admitted_iff {document : BaseRelayRuntimeLimitsDocument}
    {config : BaseRelayRuntimeLimitsConfig} {limits : BaseRelayAllLimits} {services : RelayServices}
    (hconfig : BaseRelayRuntimeLimitsConfig.fromDocument document = .ok config)
    (hlimits : config.baseRelayLimits = .ok limits) (hservices : services.limits = limits.requests)
    (hreads : services.reads.IgnoresLimit) :
    (∀ filter : PocketFilter, filter.IsDefaultQuery → services.reads.refusesFilter filter = none →
      (services.Admits [filter] ↔
        BaseRelayRequestLimits.ownCost filter + document.defaultLimit.toNat ≤
            document.maxQueryComplexity.toNat ∧
          document.defaultLimit.toNat < 2 ^ 32)) ∧
    ((∃ filters, (∀ filter ∈ filters, filter.limit = PocketFilter.noLimit) ∧
        services.Admits filters) ↔
      1 + document.defaultLimit.toNat ≤ document.maxQueryComplexity.toNat ∧
        document.defaultLimit.toNat < 2 ^ 32) := by
  obtain rfl := BaseRelayRuntimeLimitsConfig.document_of_fromDocument hconfig
  obtain ⟨hsettings, hfilters, hvalues⟩ := BaseRelayAllLimits.accepted hlimits
  have hdefault : services.limits.defaultLimit = config.defaultLimit.toNat := by
    rw [hservices, BaseRelayAllLimits.requests, hsettings]
  have hcomplexity : services.limits.maxQueryComplexity = config.maxQueryComplexity.toNat := by
    rw [hservices, BaseRelayAllLimits.requests, hsettings]
  have hfilters : 1 ≤ services.limits.maxFiltersPerRequest := by
    rw [hservices, BaseRelayAllLimits.requests, hsettings]
    exact Nat.one_le_iff_ne_zero.mpr fun h => hfilters (UInt64.toNat_inj.mp h)
  have hvalues : 1 ≤ services.limits.maxTagValuesPerFilter := by
    rw [hservices, BaseRelayAllLimits.requests, hsettings]
    exact Nat.one_le_iff_ne_zero.mpr fun h => hvalues (UInt64.toNat_inj.mp h)
  have hlarge : u64Max = 2 ^ 64 - 1 := rfl
  rw [← hdefault, ← hcomplexity]
  refine ⟨fun filter hquery htaken => ⟨fun hadmits => ?_, fun ⟨hroom, hfits⟩ => ?_⟩,
    fun ⟨filters, hnone, hadmits⟩ => ?_, fun ⟨hroom, hfits⟩ => ?_⟩
  · obtain ⟨hfits, hroom⟩ := room_of_admits hadmits (List.mem_singleton_self _) hquery.limit
    have hcost := hquery.ownCost_le
    omega
  · have hone := hquery.one
    exact admits_of_room hreads hquery.limit htaken hfilters (by omega) hroom hfits
  · obtain ⟨hsome, _⟩ := BaseRelayRequestLimits.validatePocketFilters_eq_ok.mp hadmits.1
    obtain ⟨filter, hmem⟩ := List.exists_mem_of_ne_nil _ hsome
    obtain ⟨hfits, hroom⟩ := room_of_admits hadmits hmem (hnone filter hmem)
    have hcost := BaseRelayRequestLimits.one_le_ownCost filter
    omega
  · refine ⟨[⟨[], [], [], [], PocketTime.min, PocketTime.max, PocketFilter.noLimit⟩], ?_, ?_⟩
    · simp
    · exact admits_of_room hreads rfl hreads.empty hfilters (Nat.zero_le _) hroom hfits

namespace Sample

/-- Limits with this default limit and this largest complexity. -/
def limitsDocument (defaultLimit maxQueryComplexity : UInt64) : BaseRelayRuntimeLimitsDocument where
  maxMessageLength := 65536
  maxSubidLength := 64
  maxSubscriptionsPerConnection := 20
  maxFiltersPerRequest := 10
  maxTagValuesPerFilter := 100
  maxQueryComplexity
  maxLimit := 500
  defaultLimit
  maxEventTags := 100
  maxContentLength := 65536
  broadcastChannelCapacity := 16
  perConnectionOutboundQueue := 64

/-- The limits of the relay that the document gives. -/
def relayLimits (document : BaseRelayRuntimeLimitsDocument) : BaseRelayAllLimits where
  maxPendingEvents := document.perConnectionOutboundQueue
  maxSubscriptionIdLength := document.maxSubidLength
  maxSubscriptions := document.maxSubscriptionsPerConnection
  maxFiltersPerRequest := document.maxFiltersPerRequest
  maxTagValuesPerFilter := document.maxTagValuesPerFilter
  maxQueryComplexity := document.maxQueryComplexity
  maxEventTags := document.maxEventTags
  maxContentLength := document.maxContentLength
  maxLimit := document.maxLimit
  defaultLimit := document.defaultLimit

/-- A relay without groups and events, with the limits of the document. -/
def limited (document : BaseRelayRuntimeLimitsDocument) : RelayServices where
  reads := plainReads
  events := []
  groups := none
  limits := (relayLimits document).requests
  query := ⟨false, 100, 3600⟩

/-- Notes. -/
def anyNotes : PocketFilter :=
  ⟨[], [], [1], [], PocketTime.min, PocketTime.max, PocketFilter.noLimit⟩

/-- The plain reads look at no limit. -/
theorem plainReads_ignoresLimit : plainReads.IgnoresLimit :=
  ⟨fun _ _ => rfl, rfl⟩

end Sample

section
open Sample

/-- The theorem at the default limits with a filter that asks for any notes. -/
theorem default_query_admitted_iff_anyNotes : (limited (limitsDocument 100 10000)).Admits
    [anyNotes] := by
  have haccepted : BaseRelayRuntimeLimitsConfig.fromDocument (limitsDocument 100 10000) =
      .ok ⟨limitsDocument 100 10000⟩ := rfl
  have hlimits : BaseRelayRuntimeLimitsConfig.baseRelayLimits ⟨limitsDocument 100 10000⟩ =
      .ok (relayLimits (limitsDocument 100 10000)) := rfl
  have hservices : (limited (limitsDocument 100 10000)).limits =
      (relayLimits (limitsDocument 100 10000)).requests := rfl
  obtain ⟨hadmits, _⟩ :=
    default_query_admitted_iff haccepted hlimits hservices plainReads_ignoresLimit
  have hquery : anyNotes.IsDefaultQuery :=
    ⟨rfl, rfl, rfl, rfl, fun _ h => (nomatch h), by decide⟩
  exact (hadmits anyNotes hquery rfl).mpr ⟨by decide, by decide⟩

/-- An accepted configuration whose default limit is the largest complexity of a query: a filter
costs at least one besides its limit, so no request that leaves the limit out is admitted. -/
theorem no_default_query_admitted :
    BaseRelayRuntimeLimitsConfig.fromDocument (limitsDocument 500 500) =
        .ok ⟨limitsDocument 500 500⟩ ∧
      BaseRelayRuntimeLimitsConfig.baseRelayLimits ⟨limitsDocument 500 500⟩ =
        .ok (relayLimits (limitsDocument 500 500)) ∧
      ∀ filters, (∀ filter ∈ filters, filter.limit = PocketFilter.noLimit) →
        (limited (limitsDocument 500 500)).limits.validatePocketFilters filters ≠ .ok () := by
  refine ⟨rfl, rfl, fun filters hnone hvalid => ?_⟩
  obtain ⟨hsome, _, _, hscore⟩ := BaseRelayRequestLimits.validatePocketFilters_eq_ok.mp hvalid
  obtain ⟨filter, hmem⟩ := List.exists_mem_of_ne_nil _ hsome
  have hle : (limited (limitsDocument 500 500)).limits.pocketFilterComplexity filter ≤
      (filters.map (limited (limitsDocument 500 500)).limits.pocketFilterComplexity).sum :=
    List.le_sum_of_mem (List.mem_map_of_mem hmem)
  rw [complexity_of_noLimit (hnone filter hmem)] at hle
  have hlarge : u64Max = 2 ^ 64 - 1 := rfl
  have hcost := BaseRelayRequestLimits.one_le_ownCost filter
  have hdefault : (limited (limitsDocument 500 500)).limits.defaultLimit = 500 := rfl
  have hcomplexity : (limited (limitsDocument 500 500)).limits.maxQueryComplexity = 500 := rfl
  rw [hdefault] at hle
  rw [hcomplexity] at hscore
  omega

end

end Tangle
