import Tangle.Lib.Firsts
import Tangle.Relay.Requests
import Tangle.Runtime.Service

/-!
# Queries and counts

A query passes every candidate of every filter through the read gate of the group service, when
there is one. A candidate that the gate hides makes the reply a refusal instead of an end, and one
on which the gate fails makes the query fail.
-/

namespace Tangle

/-- What a request is answered from. -/
structure RelayServices where
  reads : PocketReads
  events : List StoredEvent
  groups : Option GroupServiceState
  limits : BaseRelayRequestLimits
  query : PocketQueryConfig

/-- `BaseRelayQueryMetrics`: what one query has counted of the store. -/
structure BaseRelayQueryMetrics where
  candidatesScanned : Nat
  returnedEvents : Nat
  redactedEvents : Nat
deriving DecidableEq

namespace BaseRelayQueryMetrics

/-- The counts before any scan. -/
def default : BaseRelayQueryMetrics :=
  ⟨0, 0, 0⟩

/-- `BaseRelayQueryMetrics::add`: the counts of two scans together. -/
def add (metrics other : BaseRelayQueryMetrics) : BaseRelayQueryMetrics where
  candidatesScanned := saturatingAdd metrics.candidatesScanned other.candidatesScanned
  returnedEvents := saturatingAdd metrics.returnedEvents other.returnedEvents
  redactedEvents := saturatingAdd metrics.redactedEvents other.redactedEvents

/-- `with_returned_events`: the counts with what the reader is sent. -/
def withReturnedEvents (metrics : BaseRelayQueryMetrics) (returnedEvents : Nat) :
    BaseRelayQueryMetrics :=
  { metrics with returnedEvents := returnedEvents }

end BaseRelayQueryMetrics

/-- `BaseRelayQueryReport` of one filter: the events that passed, and whether any was held back. -/
structure BaseRelayQueryReport where
  messages : List RuntimeRelayMessage
  groupReadDenied : Bool
  queryMetrics : BaseRelayQueryMetrics

/-- `BaseRelayEventQueryReport`: the report of a whole request. -/
structure BaseRelayEventQueryReport where
  events : List PocketEvent
  groupReadDenied : Bool
  queryMetrics : BaseRelayQueryMetrics

/-- Which limit a search gets. -/
inductive BaseRelayFilterLimitMode where
  | applyDefaultLimit
  | preserveCountLimitless
  | override (limit : UInt32)

/-- The cells that a screen keeps during a search. -/
structure ScreenCells where
  screenError : Option BaseRelayError
  candidatesScanned : Nat
  redactedEvents : Nat

namespace ScreenCells

/-- The cells before the screen has seen an event. -/
def new : ScreenCells :=
  ⟨none, 0, 0⟩

/-- One more event scanned. -/
def scan (cells : ScreenCells) : ScreenCells :=
  { cells with candidatesScanned := saturatingAdd cells.candidatesScanned 1 }

/-- An event was held back from the reader. -/
def redact (cells : ScreenCells) : ScreenCells :=
  { cells with redactedEvents := saturatingAdd cells.redactedEvents 1 }

/-- The screen met an error, which ends the query once the scan returns. -/
def fail (cells : ScreenCells) (error : BaseRelayError) : ScreenCells :=
  { cells with screenError := some error }

end ScreenCells

namespace BaseRelay

/-- `group_read_gate_visible_to_auth`: without a group service every event is visible. -/
def groupReadGateVisibleToAuth (groups : Option GroupServiceState) (event : PocketEvent)
    (auth : GroupAuthContext) : Except BaseRelayError Bool :=
  match groups with
  | none => .ok true
  | some state => (state.eventVisibleToAuth event auth).mapError .ofGroup

/-- `sort_and_dedupe_query_events`: newest first and by id among equals, each event once. -/
def sortAndDedupeQueryEvents (events : List PocketEvent) : List PocketEvent :=
  firstsBy PocketEvent.id ∅ (events.insertionSort NewerFirst)

end BaseRelay

namespace RelayServices

variable (services : RelayServices)

/-- The filter with the limit that the search gets. -/
def pocketFilterWithLimitMode (filter : PocketFilter) (limitMode : BaseRelayFilterLimitMode) :
    Except BaseRelayError PocketFilter := do
  let limit : UInt32 ← match limitMode with
    | .applyDefaultLimit =>
      if filter.limit = PocketFilter.noLimit then
        if services.limits.defaultLimit < 2 ^ 32 then
          pure (UInt32.ofNat services.limits.defaultLimit)
        else
          .error (.invalid "default filter limit exceeds u32")
      else
        pure filter.limit
    | .preserveCountLimitless => pure PocketFilter.noLimit
    | .override limit => pure limit
  (services.reads.newFilter filter.ids filter.authors filter.kinds filter.tags
    (if filter.since ≠ PocketTime.min then some filter.since else none)
    (if filter.until ≠ PocketTime.max then some filter.until else none)
    (if limit ≠ PocketFilter.noLimit then some limit else none)).mapError .error

/-- The screen of a search: a candidate that matches goes through the read gate. After a failure
every candidate is a mismatch. -/
def screenPocketEvent (filter : PocketFilter) (auth : GroupAuthContext) :
    PocketScreen ScreenCells := fun event => do
  modify ScreenCells.scan
  if (← get).screenError.isSome then
    return .mismatch
  else
    match services.reads.eventMatches filter event with
    | .ok false => return .mismatch
    | .ok true =>
      match BaseRelay.groupReadGateVisibleToAuth services.groups event auth with
      | .ok true => return .isMatch
      | .ok false =>
        modify ScreenCells.redact
        return .redacted
      | .error error =>
        modify fun cells => cells.fail error
        return .mismatch
    | .error error =>
      modify fun cells => cells.fail (.error error)
      return .mismatch

/-- One filter's search. -/
def queryFilterEventsReport (query : PocketQueryConfig) (filter : PocketFilter)
    (auth : GroupAuthContext) (limitMode : BaseRelayFilterLimitMode) :
    Except BaseRelayError BaseRelayEventQueryReport := do
  let pocketFilter ← services.pocketFilterWithLimitMode filter limitMode
  let (found, cells) := (services.reads.findEvents services.events pocketFilter query
    (services.screenPocketEvent pocketFilter auth)).run .new
  let screened ← found.mapError BaseRelayError.error
  match cells.screenError with
  | some error => .error error
  | none =>
    return ⟨screened.events, screened.redacted, ⟨cells.candidatesScanned, 0, cells.redactedEvents⟩⟩

/-! ## Requests -/

/-- Adds one filter's events to those of the filters before it. -/
def queryNextFilter (auth : GroupAuthContext) (report : BaseRelayEventQueryReport)
    (filter : PocketFilter) : Except BaseRelayError BaseRelayEventQueryReport := do
  let found ← services.queryFilterEventsReport services.query filter auth .applyDefaultLimit
  let events := (BaseRelay.sortAndDedupeQueryEvents found.events).take
    (services.limits.effectivePocketFilterLimit filter)
  return ⟨report.events ++ events, report.groupReadDenied || found.groupReadDenied,
    report.queryMetrics.add found.queryMetrics⟩

/-- `query_events_report`: the filters are answered one by one, their events merged, sorted and each
kept once, and their counts added. -/
def queryEventsReport (filters : List PocketFilter) (auth : GroupAuthContext) :
    Except BaseRelayError BaseRelayEventQueryReport := do
  let report ← filters.foldlM (services.queryNextFilter auth) ⟨[], false, .default⟩
  let events := BaseRelay.sortAndDedupeQueryEvents report.events
  return ⟨events, report.groupReadDenied, report.queryMetrics.withReturnedEvents events.length⟩

/-- The message that ends a reply. -/
def lastMessage (subscriptionId : SubscriptionId) (auth : GroupAuthContext)
    (groupReadDenied : Bool) : RuntimeRelayMessage :=
  if groupReadDenied then
    .relay (BaseRelay.redactedReqClosed subscriptionId auth)
  else
    .relay (.eose subscriptionId)

/-- The checks on a request before anything is searched. -/
def validateRequest (subscriptionId : SubscriptionId) (filters : List PocketFilter) :
    Except BaseRelayError Unit := do
  services.limits.validateSubscriptionId subscriptionId
  services.limits.validatePocketFilters filters

/-- The reply to a request (`query_req_with_group_auth_shared_services`). -/
def queryReqWithGroupAuth (subscriptionId : SubscriptionId) (filters : List PocketFilter)
    (searchPresent : Bool) (auth : GroupAuthContext) :
    Except BaseRelayError BaseRelayQueryReport := do
  services.validateRequest subscriptionId filters
  match BaseRelay.unsupportedSearchPresentClosed subscriptionId searchPresent with
  | some message => return ⟨[.relay message], false, .default⟩
  | none =>
    let report ← services.queryEventsReport filters auth
    return ⟨report.events.map (.event subscriptionId) ++
        [lastMessage subscriptionId auth report.groupReadDenied],
      report.groupReadDenied, report.queryMetrics⟩

end RelayServices

/-! ## Counts -/

/-- `BaseRelayCountHllGroupTargets`: which groups a counting filter names, if it names any at
all. -/
inductive BaseRelayCountHllGroupTargets where
  | none
  | suppress
  | targets (groupIds : BTreeSet GroupId)

/-- `BaseRelayCountHllTargetPolicy`: whether a sketch may be sent for the groups that a filter
names. -/
inductive BaseRelayCountHllTargetPolicy where
  | eligible | suppress
deriving DecidableEq

/-- `BaseRelayCountHllDTagMode`: whether the `d` tags of a filter's kinds name groups. -/
inductive BaseRelayCountHllDTagMode where
  | ignore | target | suppress
deriving DecidableEq

namespace BaseRelay

/-- `count_hll_filter_d_tag_mode`: without kinds a filter may mean any, and then a `d` tag rules a
sketch out. -/
def countHllFilterDTagMode (filter : PocketFilter) : BaseRelayCountHllDTagMode :=
  if filter.kinds.isEmpty then
    .suppress
  else if filter.kinds.any fun kind => nip29RelayGeneratedKindValues.contains kind.toNat then
    .target
  else
    .ignore

/-- `count_hll_filter_has_group_target`: the filter has an `h` tag, or a `d` tag that its kinds do
not keep from naming a group. -/
def countHllFilterHasGroupTarget (filter : PocketFilter) : Bool :=
  let dTagMode := countHllFilterDTagMode filter
  filter.tags.any fun tag =>
    tag.head? == some (.text "h".toList) ||
      ((dTagMode == .target || dTagMode == .suppress) && tag.head? == some (.text "d".toList))

/-- The group ids that the values of a tag name, if they all name one. -/
def countHllTagValueTargets (values : List TagValue) (maxGroupIdBytes : Nat) :
    Option (List GroupId) :=
  if values.isEmpty then
    none
  else
    values.mapM fun value =>
      match value with
      | .text value => (GroupId.newWithMaxBytes value maxGroupIdBytes).toOption
      | .raw _ => none

/-- The group ids that a tag of a filter names; `none` when it rules a sketch out. -/
def countHllTagTargets (dTagMode : BaseRelayCountHllDTagMode) (maxGroupIdBytes : Nat) :
    List TagValue → Option (List GroupId)
  | [] => some []
  | name :: values =>
    if name = .text "d".toList then
      match dTagMode with
      | .ignore => some []
      | .suppress => none
      | .target => countHllTagValueTargets values maxGroupIdBytes
    else if name ≠ .text "h".toList then
      some []
    else
      countHllTagValueTargets values maxGroupIdBytes

/-- `count_hll_group_targets`: the groups named, unless one of the values is no group id. -/
def countHllGroupTargets (filter : PocketFilter) (maxGroupIdBytes : Nat) :
    BaseRelayCountHllGroupTargets :=
  match filter.tags.mapM (countHllTagTargets (countHllFilterDTagMode filter) maxGroupIdBytes) with
  | none => .suppress
  | some groupIds =>
    if groupIds.flatten.isEmpty then
      .none
    else
      .targets (Std.ExtTreeSet.ofList groupIds.flatten compare)

/-- Whether the group is there, and neither deleted, private nor hidden. -/
def isOpenGroup (projection : GroupProjection) (groupId : GroupId) : Bool :=
  (projection.group groupId).any fun group =>
    (projection.tombstone groupId).isNone && !group.metadata.isPrivate && !group.metadata.hidden

/-- `count_hll_filter_target_policy`: a sketch is held back when a filter names a group that is not
open, or that does not parse, and without a group service when it names any. -/
def countHllFilterTargetPolicy (groups : Option GroupServiceState) (filter : PocketFilter) :
    BaseRelayCountHllTargetPolicy :=
  match groups with
  | none => if countHllFilterHasGroupTarget filter then .suppress else .eligible
  | some state =>
    match countHllGroupTargets filter state.limits.maxGroupIdBytes.toNat with
    | .none => .eligible
    | .suppress => .suppress
    | .targets groupIds =>
      if groupIds.toList.all (isOpenGroup state.projection) then .eligible else .suppress

/-- Whether a counted event rules a sketch out: it is of a group that is not open. -/
def eventSuppressesCountHll (groups : Option GroupServiceState) (event : PocketEvent) :
    Except BaseRelayError Bool :=
  match groups with
  | none => .ok false
  | some state => do
    let eventClass ← (classifyGroupEvent event state.limits).mapError BaseRelayError.ofGroup
    match eventClass.groupId with
    | none => return false
    | some groupId => return !isOpenGroup state.projection groupId

end BaseRelay

/-- The sketch of a count: it has one when the count's only filter has an offset for it. -/
structure BaseRelayCountHll (reads : PocketReads) where
  offset : Option Nat
  hll : Option reads.Hll8
  suppressed : Bool

namespace BaseRelayCountHll

variable {reads : PocketReads}

/-- The offset of the sketch is asked for single filters only. -/
def countHllOffset (reads : PocketReads) : List PocketFilter → Except BaseRelayError (Option Nat)
  | [filter] => (reads.hyperloglogOffset filter).mapError .error
  | _ => .ok none

/-- `BaseRelayCountHll::new`: a sketch is begun when the filter has an offset for one. -/
def new (reads : PocketReads) (filters : List PocketFilter) :
    Except BaseRelayError (BaseRelayCountHll reads) := do
  let offset ← countHllOffset reads filters
  return ⟨offset, offset.map fun _ => reads.newHll8, false⟩

/-- The sketch is given up for good. -/
def suppress (hll : BaseRelayCountHll reads) : BaseRelayCountHll reads :=
  if hll.offset.isSome then { hll with suppressed := true } else hll

/-- `suppress_for_filter_targets`: only a single filter has a sketch to give up. -/
def suppressForFilterTargets (hll : BaseRelayCountHll reads) (groups : Option GroupServiceState) :
    List PocketFilter → BaseRelayCountHll reads
  | [filter] =>
    if hll.offset.isSome ∧ BaseRelay.countHllFilterTargetPolicy groups filter = .suppress then
      hll.suppress
    else
      hll
  | _ => hll

/-- Takes the author of an event into the registers. -/
def observe (hll : BaseRelayCountHll reads) (groups : Option GroupServiceState)
    (event : PocketEvent) : Except BaseRelayError (BaseRelayCountHll reads) :=
  match hll.offset with
  | none => .ok hll
  | some offset => do
    if ← BaseRelay.eventSuppressesCountHll groups event then
      return { hll with suppressed := true }
    else
      match hll.hll with
      | none => return hll
      | some registers =>
        let registers ← (reads.addElement registers event.pubkey offset).mapError
          BaseRelayError.error
        return { hll with hll := some registers }

/-- `into_hex`: what is left of the sketch, as text. -/
def intoHex (hll : BaseRelayCountHll reads) : Option String :=
  if hll.suppressed then none else hll.hll.map reads.toHexString

end BaseRelayCountHll

/-- What a count has gathered. -/
structure CountCells (reads : PocketReads) where
  seen : BTreeSet EventId
  groupReadDenied : Bool
  queryMetrics : BaseRelayQueryMetrics
  hll : BaseRelayCountHll reads

/-- `BaseRelayCountReport`: the number counted, whether it is exact, and the sketch that goes with
it. -/
structure BaseRelayCountReport where
  message : RelayMessage
  groupReadDenied : Bool
  queryMetrics : BaseRelayQueryMetrics

namespace RelayServices

variable (services : RelayServices)

/-- Counts one event. -/
def countEvent (cells : CountCells services.reads) (event : PocketEvent) :
    Except BaseRelayError (CountCells services.reads) := do
  let hll ← cells.hll.observe services.groups event
  return { cells with hll := hll, seen := cells.seen.insert event.id }

/-- Counts what one filter finds. -/
def countNextFilter (auth : GroupAuthContext) (cells : CountCells services.reads)
    (filter : PocketFilter) : Except BaseRelayError (CountCells services.reads) := do
  let found ← services.queryFilterEventsReport services.query.exactCount filter auth
    .preserveCountLimitless
  found.events.foldlM services.countEvent
    { cells with
      groupReadDenied := cells.groupReadDenied || found.groupReadDenied
      hll := if found.groupReadDenied then cells.hll.suppress else cells.hll
      queryMetrics := cells.queryMetrics.add found.queryMetrics }

/-- What all the filters of a count find. -/
def countEvents (filters : List PocketFilter) (auth : GroupAuthContext) :
    Except BaseRelayError (CountCells services.reads) := do
  let hll ← BaseRelayCountHll.new services.reads filters
  filters.foldlM (services.countNextFilter auth)
    ⟨∅, false, .default, hll.suppressForFilterTargets services.groups filters⟩

/-- The reply to a count (`handle_count_with_group_auth_shared_services`). -/
def handleCountWithGroupAuth (subscriptionId : SubscriptionId) (filters : List PocketFilter)
    (searchPresent : Bool) (auth : GroupAuthContext) :
    Except BaseRelayError BaseRelayCountReport := do
  services.validateRequest subscriptionId filters
  match BaseRelay.unsupportedSearchPresentClosed subscriptionId searchPresent with
  | some message => return ⟨message, false, .default⟩
  | none =>
    let cells ← services.countEvents filters auth
    return ⟨.count subscriptionId cells.seen.size cells.hll.intoHex, cells.groupReadDenied,
      cells.queryMetrics⟩

end RelayServices

end Tangle
