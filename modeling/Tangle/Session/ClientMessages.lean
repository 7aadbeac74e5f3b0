import Tangle.Protocol.Events
import Tangle.Protocol.JsonText
import Tangle.Relay.Limits

/-!
# Messages of clients

A client's message is an array whose first item names a command. The filters of a request are
objects: each field is checked, no field may stand twice, and the fields that Pocket knows are
printed again and read by Pocket's own parser.

The limit of a filter is checked to fit 32 bits and then held by Pocket in 32 bits, of which the
largest number stands for no limit at all. So the one limit that collides with it is taken for
none and escapes the check against the largest limit (`explicit_limits_enforced_iff`).
-/

namespace Tangle

/-! ## The parser -/

/-- `SubscriptionId::new`: not empty and not too long. -/
def SubscriptionId.new (value : Text) : Except String SubscriptionId :=
  if hempty : value.length = 0 then
    .error "subscription id must not be empty"
  else if hlong : value.length > 64 then
    .error s!"subscription id must be at most 64 characters, got {value.length}"
  else
    .ok ⟨value, hempty, Nat.le_of_not_lt hlong⟩

/-- What the parser of messages calls: the JSON library, with the error it has for a value of
another type than the expected, and the parsers of Pocket. -/
structure ClientParsers where
  json : SerdeJson
  typeError : JsonValue → String → String
  parsePocketEventJson : JsonValue → Except String PocketEvent
  parsePocketFilterJson : Text → Except String PocketFilter

/-- The fields of a filter that Pocket knows, and whether there is a search. -/
structure RuntimeFilterShape where
  search : Bool
  pocketFields : JsonMap

/-- A filter of a client, with the shape that was checked first. -/
structure RuntimeParsedFilter where
  filter : PocketFilter
  searchPresent : Bool

/-- A message of a client (`RuntimeClientMessage`). -/
inductive ParsedClientMessage where
  | event (event : PocketEvent)
  | auth (event : PocketEvent)
  | req (subscriptionId : SubscriptionId) (filters : List PocketFilter) (searchPresent : Bool)
  | count (subscriptionId : SubscriptionId) (filters : List PocketFilter) (searchPresent : Bool)
  | close (subscriptionId : SubscriptionId)
  | negOpen (subscriptionId : SubscriptionId) (filter : PocketFilter) (message : Text)
  | negMsg (subscriptionId : SubscriptionId) (message : Text)
  | negClose (subscriptionId : SubscriptionId)
deriving DecidableEq

/-- The part of a text before the first occurrence of another. -/
def textBefore (mark : Text) : Text → Text
  | [] => []
  | c :: rest => if mark.isPrefixOf (c :: rest) then [] else c :: textBefore mark rest

/-- An error of the JSON library without the place at which it was found. -/
def stripJsonLocation (message : String) : String :=
  String.ofList (textBefore " at line ".toList message.toList)

namespace RuntimeFilterShape

/-- The shape of a filter without fields. -/
def empty : RuntimeFilterShape :=
  ⟨false, ∅⟩

/-- The shape with one more field. -/
def insert (shape : RuntimeFilterShape) (field : Text) (value : JsonValue) : RuntimeFilterShape :=
  { shape with pocketFields := shape.pocketFields.insert field value }

/-- An array with at least one value. -/
def validateNonEmptyArray (field : Text) (value : JsonValue) : Except String Unit :=
  match value.asArray with
  | some (_ :: _) => .ok ()
  | _ => .error s!"filter field `{field.toMessage}` must be a non-empty array"

/-- A number without a sign. -/
def validateU64Field (field : Text) (value : JsonValue) : Except String UInt64 :=
  Except.okOr value.asU64 s!"filter field `{field.toMessage}` must be an unsigned integer"

/-- A limit: a number that 32 bits can hold. -/
def validateLimitField (field : Text) (value : JsonValue) : Except String Unit := do
  let limit ← validateU64Field field value
  if limit.toNat < 2 ^ 32 then
    .ok ()
  else
    .error s!"filter field `{field.toMessage}` exceeds Pocket range"

/-- The values of a tag filter: texts, and at least one. -/
def validateTagFilterField (field : Text) (value : JsonValue) : Except String Unit :=
  match TagName.new (field.drop 1) with
  | .error reason => .error s!"filter field `{field.toMessage}` is invalid: {reason}"
  | .ok tagName =>
    if tagName.isIndexable then
      validateNonEmptyArray field value
    else
      let reason := "tag name must be a single ASCII letter"
      .error s!"filter field `{field.toMessage}` is invalid: {reason}"

/-- Takes a field with its value. -/
def visitField (shape : RuntimeFilterShape) (field : Text) (value : JsonValue) :
    Except String RuntimeFilterShape :=
  if field = "ids".toList ∨ field = "authors".toList ∨ field = "kinds".toList then do
    validateNonEmptyArray field value
    return shape.insert field value
  else if field = "since".toList ∨ field = "until".toList then do
    let _ ← validateU64Field field value
    return shape.insert field value
  else if field = "limit".toList then do
    validateLimitField field value
    return shape.insert field value
  else if field = "search".toList then
    match value.asStr with
    | some _ => .ok { shape with search := true }
    | none => .error s!"filter field `{field.toMessage}` must be a string"
  else if field.head? = some '#' then do
    validateTagFilterField field value
    return shape.insert field value
  else
    .error s!"filter field `{field.toMessage}` is unsupported"

/-- Takes the fields of an object one after another, none of them twice. -/
def visitMap (fields : BTreeSet Text) (shape : RuntimeFilterShape) :
    List (Text × JsonValue) → Except String RuntimeFilterShape
  | [] => .ok shape
  | (field, value) :: rest =>
    if fields.contains field then
      .error s!"duplicate object field `{field.toMessage}`"
    else do
      let shape ← shape.visitField field value.lastWins
      visitMap (fields.insert field) shape rest

end RuntimeFilterShape

namespace ClientParsers

variable (parsers : ClientParsers)

/-- `inspect_filter_shape`: the fields of a filter one after the other. -/
def inspectFilterShape (value : JsonValue) : Except String RuntimeFilterShape :=
  match value.asObject with
  | some fields =>
    (RuntimeFilterShape.visitMap ∅ .empty fields).mapError stripJsonLocation
  | none => .error (stripJsonLocation (parsers.typeError value "a filter JSON object"))

/-- `parse_filter`: the shape is inspected before the filter is built. -/
def parseFilter (value : JsonValue) : Except String RuntimeParsedFilter := do
  let shape ← parsers.inspectFilterShape value
  let filter ← parsers.parsePocketFilterJson (parsers.json.toText shape.pocketFields.toValue)
  return ⟨filter, shape.search⟩

/-- A value that has to be there and to be a text. -/
def parseStringValue (value : Option JsonValue) (missing invalidType : String) :
    Except String Text := do
  let value ← Except.okOr value missing
  Except.okOr value.asStr invalidType

/-- The id of a subscription after the name of a command. -/
def parseSubscriptionId (value : JsonValue) (command : String) : Except String SubscriptionId := do
  SubscriptionId.new (← Except.okOr value.asStr s!"{command} subscription id must be a string")

/-- The message of a negentropy command. -/
def parseNegentropyMessage (value : JsonValue) (command : String) : Except String Text := do
  let message ← Except.okOr value.asStr s!"{command} message must be a string"
  if message.length % 2 = 0 ∧ message.all (fun c => c.isDigit || ('a' ≤ c && c ≤ 'f')) then
    return message
  else
    .error s!"{command} message must be a lowercase even-length hex string"

/-- The event of a message, built into what was asked for. -/
def parseEventOrAuth (values : List JsonValue) (build : PocketEvent → ParsedClientMessage) :
    Except String ParsedClientMessage :=
  match values with
  | [_, event] => build <$> parsers.parsePocketEventJson event
  | _ => .error "EVENT and AUTH client messages must contain exactly one event"

/-- The filters of a REQ or a COUNT, and whether one of them searches. -/
def parseReqOrCount (values : List JsonValue) (command : String)
    (build : SubscriptionId → List PocketFilter → Bool → ParsedClientMessage) :
    Except String ParsedClientMessage :=
  match values with
  | _ :: subscriptionId :: first :: rest => do
    let subscriptionId ← parseSubscriptionId subscriptionId command
    let filters ← (first :: rest).mapM parsers.parseFilter
    return build subscriptionId (filters.map RuntimeParsedFilter.filter)
      (filters.any RuntimeParsedFilter.searchPresent)
  | _ => .error s!"{command} client message must contain a subscription id and filters"

/-- Parses a CLOSE. -/
def parseClose (values : List JsonValue) : Except String ParsedClientMessage :=
  match values with
  | [_, subscriptionId] => .close <$> parseSubscriptionId subscriptionId "CLOSE"
  | _ => .error "CLOSE client message must contain exactly 2 elements"

/-- Parses a NEG-OPEN. -/
def parseNegOpen (values : List JsonValue) : Except String ParsedClientMessage :=
  match values with
  | [_, subscriptionId, filter, message] => do
    let subscriptionId ← parseSubscriptionId subscriptionId "NEG-OPEN"
    let parsed ← parsers.parseFilter filter
    return .negOpen subscriptionId parsed.filter (← parseNegentropyMessage message "NEG-OPEN")
  | _ => .error "NEG-OPEN client message must contain a subscription id, filter, and message"

/-- Parses a NEG-MSG. -/
def parseNegMsg (values : List JsonValue) : Except String ParsedClientMessage :=
  match values with
  | [_, subscriptionId, message] => do
    let subscriptionId ← parseSubscriptionId subscriptionId "NEG-MSG"
    return .negMsg subscriptionId (← parseNegentropyMessage message "NEG-MSG")
  | _ => .error "NEG-MSG client message must contain a subscription id and message"

/-- Parses a NEG-CLOSE. -/
def parseNegClose (values : List JsonValue) : Except String ParsedClientMessage :=
  match values with
  | [_, subscriptionId] => .negClose <$> parseSubscriptionId subscriptionId "NEG-CLOSE"
  | _ => .error "NEG-CLOSE client message must contain exactly 2 elements"

/-- The items of a message. -/
def messageValues (raw : Text) : Except String (List JsonValue) := do
  let document ← (parsers.json.fromText raw).mapError fun source =>
    s!"client message JSON is invalid: {source}"
  let source := parsers.typeError document "a sequence"
  Except.okOr document.asArray s!"client message JSON is invalid: {source}"

/-- **`parse_client_message`**: a message by its command. -/
def parseRuntimeClientMessage (raw : Text) : Except String ParsedClientMessage := do
  let values ← parsers.messageValues raw
  let command ← parseStringValue values.head? "client message command is missing"
    "client message command must be a string"
  if command = "EVENT".toList then
    parsers.parseEventOrAuth values .event
  else if command = "AUTH".toList then
    parsers.parseEventOrAuth values .auth
  else if command = "REQ".toList then
    parsers.parseReqOrCount values "REQ" .req
  else if command = "COUNT".toList then
    parsers.parseReqOrCount values "COUNT" .count
  else if command = "CLOSE".toList then
    parseClose values
  else if command = "NEG-OPEN".toList then
    parsers.parseNegOpen values
  else if command = "NEG-MSG".toList then
    parseNegMsg values
  else if command = "NEG-CLOSE".toList then
    parseNegClose values
  else
    .error s!"client message command `{command.toMessage}` is unsupported"

end ClientParsers

/-! ## Limits of filters -/

/-- The limit that an object names. -/
def explicitLimit (object : JsonValue) : Option UInt64 := do
  let fields ← object.asObject
  let value ← fields.lookup "limit".toList
  value.asU64

/-- The limit that a filter states is the one among its fields. -/
theorem explicitLimit_eq {object : JsonValue} {fields : List (Text × JsonValue)}
    (h : object.asObject = some fields) :
    explicitLimit object = (fields.lookup "limit".toList).bind JsonValue.asU64 := by
  rw [explicitLimit, h]
  rfl

namespace RuntimeFilterShape

variable {shape shape' : RuntimeFilterShape} {field : Text} {value : JsonValue}
  {fields : List (Text × JsonValue)} {seen : BTreeSet Text}

/-- A limit is taken when 32 bits can hold it. -/
theorem validateLimitField_eq_ok {u : Unit} : validateLimitField field value = .ok u ↔
    ∃ limit, value.asU64 = some limit ∧ limit.toNat < 2 ^ 32 := by
  unfold validateLimitField validateU64Field
  simp only [Except.bind_eq_ok, Except.okOr_eq_ok]
  refine exists_congr fun limit => and_congr_right fun _ => ?_
  split
  · next hfits => exact iff_of_true rfl hfits
  · next hlarge => exact iff_of_false (by simp) hlarge

/-- A limit is taken as it is; other fields leave the limit as it is. -/
theorem visitField_limit (h : shape.visitField field value = .ok shape') :
    (field = "limit".toList → shape'.pocketFields["limit".toList]? = some value ∧
      ∃ limit, value.asU64 = some limit ∧ limit.toNat < 2 ^ 32) ∧
    (field ≠ "limit".toList →
      shape'.pocketFields["limit".toList]? = shape.pocketFields["limit".toList]?) := by
  have hinsert : field ≠ "limit".toList →
      (shape.insert field value).pocketFields["limit".toList]? =
        shape.pocketFields["limit".toList]? :=
    fun hne => BTreeMap.getElem?_insert_ne hne
  unfold visitField at h
  split at h
  · next hfield =>
    have hne : field ≠ "limit".toList := by
      rintro rfl
      exact absurd hfield (by decide)
    obtain ⟨_, _, h⟩ := Except.bind_eq_ok.mp h
    cases h
    exact ⟨fun heq => absurd heq hne, hinsert⟩
  · split at h
    · next hfield =>
      have hne : field ≠ "limit".toList := by
        rintro rfl
        exact absurd hfield (by decide)
      obtain ⟨_, _, h⟩ := Except.bind_eq_ok.mp h
      cases h
      exact ⟨fun heq => absurd heq hne, hinsert⟩
    · split at h
      · next hfield =>
        obtain ⟨_, hlimit, h⟩ := Except.bind_eq_ok.mp h
        cases h
        subst hfield
        refine ⟨fun _ => ⟨?_, validateLimitField_eq_ok.mp hlimit⟩, fun hne => absurd rfl hne⟩
        exact BTreeMap.getElem?_insert_self
      · next hfield =>
        refine ⟨fun heq => absurd heq hfield, fun hne => ?_⟩
        split at h
        · split at h
          · cases h
            rfl
          · cases h
        · split at h
          · obtain ⟨_, _, h⟩ := Except.bind_eq_ok.mp h
            cases h
            exact hinsert hne
          · cases h

/-- What is visited was not seen before. -/
theorem visitMap_new (h : visitMap seen shape fields = .ok shape') :
    ∀ entry ∈ fields, entry.1 ∉ seen := by
  induction fields generalizing seen shape with
  | nil => simp
  | cons entry rest ih =>
    obtain ⟨field, value⟩ := entry
    unfold visitMap at h
    split at h
    · cases h
    · next hseen =>
      obtain ⟨next, _, h⟩ := Except.bind_eq_ok.mp h
      intro entry hentry
      rcases List.mem_cons.mp hentry with rfl | hentry
      · exact fun hmem => hseen (Std.ExtTreeSet.mem_iff_contains.mp hmem)
      · have hnew := ih h entry hentry
        simp only [Std.ExtTreeSet.mem_insert, not_or] at hnew
        exact hnew.2

/-- The limit of what was visited is the one that the object names, if it names one. -/
theorem visitMap_limit (h : visitMap seen shape fields = .ok shape') :
    (fields.lookup "limit".toList = none →
      shape'.pocketFields["limit".toList]? = shape.pocketFields["limit".toList]?) ∧
    ∀ value, fields.lookup "limit".toList = some value →
      shape'.pocketFields["limit".toList]? = some value.lastWins ∧
        ∃ limit, value.asU64 = some limit ∧ limit.toNat < 2 ^ 32 := by
  induction fields generalizing seen shape with
  | nil =>
    cases h
    simp
  | cons entry rest ih =>
    obtain ⟨field, value⟩ := entry
    unfold visitMap at h
    split at h
    · cases h
    · obtain ⟨next, hvisit, h⟩ := Except.bind_eq_ok.mp h
      obtain ⟨hlimit, hother⟩ := visitField_limit hvisit
      obtain ⟨hnone, hsome⟩ := ih h
      by_cases hfield : field = "limit".toList
      · have hrest : rest.lookup "limit".toList = none := by
          rw [List.lookup_eq_none_iff]
          intro entry hentry
          have hnew := visitMap_new h entry hentry
          simp only [Std.ExtTreeSet.mem_insert, not_or, hfield] at hnew
          simp only [bne_iff_ne, ne_eq]
          intro heq
          exact hnew.1 (heq ▸ Std.compare_self)
        obtain ⟨hkept, hlimit⟩ := hlimit hfield
        rw [List.lookup_cons, hfield, beq_self_eq_true]
        refine ⟨fun h => (nomatch h), fun found hfound => ?_⟩
        cases hfound
        rw [JsonValue.asU64_lastWins] at hlimit
        exact ⟨(hnone hrest).trans hkept, hlimit⟩
      · have hne : ("limit".toList == field) = false := by
          simp only [beq_eq_false_iff_ne, ne_eq]
          exact fun heq => hfield heq.symm
        rw [List.lookup_cons, hne]
        exact ⟨fun h => (hnone h).trans (hother hfield), hsome⟩

end RuntimeFilterShape

/-- Pocket holds the limit that an object names in 32 bits, and the largest number when it names
none. -/
def ClientParsers.StoresLimit (parsers : ClientParsers) : Prop :=
  ∀ (fields : JsonMap) (filter : PocketFilter),
    parsers.parsePocketFilterJson (parsers.json.toText fields.toValue) = .ok filter →
      (fields["limit".toList]? = none → filter.limit = PocketFilter.noLimit) ∧
      ∀ limit : UInt64, fields["limit".toList]? = some (.unsigned limit) → limit.toNat < 2 ^ 32 →
        filter.limit = UInt32.ofNat limit.toNat

/-- What Pocket holds as the limit of a filter. -/
theorem limit_of_parseFilter {parsers : ClientParsers} (hpocket : parsers.StoresLimit)
    {object : JsonValue} {parsed : RuntimeParsedFilter}
    (h : parsers.parseFilter object = .ok parsed) :
    (explicitLimit object = none → parsed.filter.limit = PocketFilter.noLimit) ∧
      ∀ limit, explicitLimit object = some limit → limit.toNat < 2 ^ 32 ∧
        parsed.filter.limit = UInt32.ofNat limit.toNat := by
  obtain ⟨shape, hshape, h⟩ := Except.bind_eq_ok.mp h
  obtain ⟨filter, hfilter, h⟩ := Except.bind_eq_ok.mp h
  cases h
  obtain ⟨habsent, hpresent⟩ := hpocket shape.pocketFields filter hfilter
  unfold ClientParsers.inspectFilterShape at hshape
  cases hobject : object.asObject with
  | none =>
    rw [hobject] at hshape
    cases hshape
  | some fields =>
    rw [hobject] at hshape
    have hvisit := Except.mapError_eq_ok.mp hshape
    obtain ⟨hnone, hsome⟩ := RuntimeFilterShape.visitMap_limit hvisit
    rw [explicitLimit_eq hobject]
    cases hlookup : fields.lookup "limit".toList with
    | none =>
      have hkept := (hnone hlookup).trans BTreeMap.getElem?_empty
      exact ⟨fun _ => habsent hkept, fun limit hlimit => (nomatch hlimit)⟩
    | some value =>
      obtain ⟨hkept, limit, hlimit, hfits⟩ := hsome value hlookup
      have hvalue : value.lastWins = .unsigned limit :=
        JsonValue.asU64_eq_some.mp ((JsonValue.asU64_lastWins value).trans hlimit)
      rw [Option.bind_some, hlimit]
      refine ⟨fun hno => (nomatch hno), fun found hfound => ?_⟩
      cases hfound
      exact ⟨hfits, hpresent limit (hvalue ▸ hkept) hfits⟩

/-! ## What filters contribute to a reply -/

namespace RelayServices

variable {services : RelayServices} {auth : GroupAuthContext} {filter : PocketFilter}
  {filters : List PocketFilter} {part : List PocketEvent}

/-- The events that one filter adds to those of the filters before it. -/
def Contributes (services : RelayServices) (auth : GroupAuthContext) (filter : PocketFilter)
    (part : List PocketEvent) : Prop :=
  ∃ before after, services.queryNextFilter auth before filter = .ok after ∧
    after.events = before.events ++ part

/-- What a filter contributes goes as far as its limit, and the default limit fits 32 bits when it
is used. -/
theorem Contributes.length_le (h : services.Contributes auth filter part) :
    part.length ≤ services.limits.effectivePocketFilterLimit filter ∧
      (filter.limit = PocketFilter.noLimit → services.limits.defaultLimit < 2 ^ 32) := by
  obtain ⟨before, after, hnext, hevents⟩ := h
  obtain ⟨found, hfound, hnext⟩ := Except.bind_eq_ok.mp hnext
  cases hnext
  have hpart := List.append_cancel_left hevents
  obtain ⟨pocketFilter, hmode, _⟩ := Except.bind_eq_ok.mp hfound
  refine ⟨?_, fun hnone => default_lt_of_succeeds hnone ⟨pocketFilter, hmode⟩⟩
  rw [← hpart]
  exact List.length_take_le _ _

/-- A reply consists of what its filters contribute. -/
theorem parts_of_queryEventsReport {report : BaseRelayEventQueryReport}
    (h : services.queryEventsReport filters auth = .ok report) :
    ∃ parts, List.Forall₂ (services.Contributes auth) filters parts ∧
      report.events = BaseRelay.sortAndDedupeQueryEvents parts.flatten := by
  have hfold : ∀ {filters : List PocketFilter} {before after : BaseRelayEventQueryReport},
      filters.foldlM (services.queryNextFilter auth) before = .ok after →
        ∃ parts, List.Forall₂ (services.Contributes auth) filters parts ∧
          after.events = before.events ++ parts.flatten := by
    intro filters
    induction filters with
    | nil =>
      intro before after h
      cases h
      exact ⟨[], .nil, by simp⟩
    | cons filter rest ih =>
      intro before after h
      rw [List.foldlM_cons] at h
      obtain ⟨next, hnext, h⟩ := Except.bind_eq_ok.mp h
      obtain ⟨parts, hparts, hafter⟩ := ih h
      obtain ⟨found, _, hfound⟩ := Except.bind_eq_ok.mp hnext
      have hevents : next.events = before.events ++
          (BaseRelay.sortAndDedupeQueryEvents found.events).take
            (services.limits.effectivePocketFilterLimit filter) := by
        cases hfound
        rfl
      refine ⟨_ :: parts, .cons ⟨before, next, hnext, hevents⟩ hparts, ?_⟩
      rw [hafter, hevents, List.flatten_cons, List.append_assoc]
  obtain ⟨found, hfound, h⟩ := Except.bind_eq_ok.mp h
  cases h
  obtain ⟨parts, hparts, hevents⟩ := hfold hfound
  exact ⟨parts, hparts, congrArg BaseRelay.sortAndDedupeQueryEvents hevents⟩

/-- What a filter contributes to a reply is no more than the limit that its object names, or than
the default limit when it names none, and its complexity is at least as much. -/
structure HoldsLimit (services : RelayServices) (object : JsonValue) (filter : PocketFilter) :
    Prop where
  explicit : ∀ limit, explicitLimit object = some limit → ∀ auth part,
    services.Contributes auth filter part → part.length ≤ limit.toNat
  default : explicitLimit object = none → ∀ auth part,
    services.Contributes auth filter part → part.length ≤ services.limits.defaultLimit
  charged : ∀ auth part, services.Contributes auth filter part →
    part.length ≤ services.limits.pocketFilterComplexity filter

end RelayServices

/-! ## Requests -/

/-- Whether a message is a REQ. -/
def ParsedClientMessage.isReq : ParsedClientMessage → Bool
  | .req .. => true
  | _ => false

section
variable {parsers : ClientParsers} {values : List JsonValue} {message : ParsedClientMessage}

/-- An event or an authentication is no REQ. -/
theorem isReq_of_parseEventOrAuth {build : PocketEvent → ParsedClientMessage}
    (hbuild : ∀ event, (build event).isReq = false)
    (h : parsers.parseEventOrAuth values build = .ok message) : message.isReq = false := by
  unfold ClientParsers.parseEventOrAuth at h
  split at h
  · obtain ⟨event, _, rfl⟩ := Except.map_eq_ok.mp h
    exact hbuild event
  · cases h

/-- A CLOSE is no REQ. -/
theorem isReq_of_parseClose (h : ClientParsers.parseClose values = .ok message) :
    message.isReq = false := by
  unfold ClientParsers.parseClose at h
  split at h
  · obtain ⟨_, _, rfl⟩ := Except.map_eq_ok.mp h
    rfl
  · cases h

/-- A NEG-OPEN is no REQ. -/
theorem isReq_of_parseNegOpen (h : parsers.parseNegOpen values = .ok message) :
    message.isReq = false := by
  unfold ClientParsers.parseNegOpen at h
  split at h
  · obtain ⟨_, _, h⟩ := Except.bind_eq_ok.mp h
    obtain ⟨_, _, h⟩ := Except.bind_eq_ok.mp h
    obtain ⟨_, _, h⟩ := Except.bind_eq_ok.mp h
    cases h
    rfl
  · cases h

/-- A NEG-MSG is no REQ. -/
theorem isReq_of_parseNegMsg (h : ClientParsers.parseNegMsg values = .ok message) :
    message.isReq = false := by
  unfold ClientParsers.parseNegMsg at h
  split at h
  · obtain ⟨_, _, h⟩ := Except.bind_eq_ok.mp h
    obtain ⟨_, _, h⟩ := Except.bind_eq_ok.mp h
    cases h
    rfl
  · cases h

/-- A NEG-CLOSE is no REQ. -/
theorem isReq_of_parseNegClose (h : ClientParsers.parseNegClose values = .ok message) :
    message.isReq = false := by
  unfold ClientParsers.parseNegClose at h
  split at h
  · obtain ⟨_, _, rfl⟩ := Except.map_eq_ok.mp h
    rfl
  · cases h

/-- A request or count has one filter for each of its objects. -/
theorem objects_of_parseReqOrCount {command : String}
    {build : SubscriptionId → List PocketFilter → Bool → ParsedClientMessage}
    (h : parsers.parseReqOrCount values command build = .ok message) :
    ∃ first id objects subscriptionId filters searchPresent, values = first :: id :: objects ∧
      message = build subscriptionId filters searchPresent ∧
      List.Forall₂ (fun object filter => ∃ parsed, parsers.parseFilter object = .ok parsed ∧
        parsed.filter = filter) objects filters := by
  unfold ClientParsers.parseReqOrCount at h
  split at h
  · next first id object rest =>
    obtain ⟨subscriptionId, _, h⟩ := Except.bind_eq_ok.mp h
    obtain ⟨parsed, hparsed, h⟩ := Except.bind_eq_ok.mp h
    refine ⟨first, id, object :: rest, subscriptionId, _, _, rfl, (Except.ok.inj h).symm, ?_⟩
    rw [List.forall₂_map_right_iff]
    exact (Except.mapM_eq_ok.mp hparsed).imp fun object parsed hparse => ⟨parsed, hparse, rfl⟩
  · cases h

/-- The filters of a request are those of its objects. -/
theorem objects_of_parse {raw : Text} {subscriptionId : SubscriptionId}
    {filters : List PocketFilter} {searchPresent : Bool}
    (h : parsers.parseRuntimeClientMessage raw = .ok (.req subscriptionId filters searchPresent)) :
    ∃ command id objects, parsers.messageValues raw = .ok (command :: id :: objects) ∧
      List.Forall₂ (fun object filter => ∃ parsed, parsers.parseFilter object = .ok parsed ∧
        parsed.filter = filter) objects filters := by
  obtain ⟨values, hvalues, h⟩ := Except.bind_eq_ok.mp h
  obtain ⟨command, _, h⟩ := Except.bind_eq_ok.mp h
  rw [hvalues]
  split at h
  · cases isReq_of_parseEventOrAuth (fun _ => rfl) h
  · split at h
    · cases isReq_of_parseEventOrAuth (fun _ => rfl) h
    · split at h
      · obtain ⟨first, id, objects, _, _, _, rfl, heq, hobjects⟩ := objects_of_parseReqOrCount h
        cases heq
        exact ⟨first, id, objects, rfl, hobjects⟩
      · split at h
        · obtain ⟨_, _, _, _, _, _, _, heq, _⟩ := objects_of_parseReqOrCount h
          cases heq
        · split at h
          · cases isReq_of_parseClose h
          · split at h
            · cases isReq_of_parseNegOpen h
            · split at h
              · cases isReq_of_parseNegMsg h
              · split at h
                · cases isReq_of_parseNegClose h
                · cases h

end

/-- What is related to one of the first values is among the second. -/
theorem exists_of_forall₂ {α β : Type} {R : α → β → Prop} {xs : List α} {ys : List β} {x : α}
    (h : List.Forall₂ R xs ys) (hx : x ∈ xs) : ∃ y ∈ ys, R x y := by
  induction h with
  | nil => cases hx
  | @cons first y rest ys hfirst _ ih =>
    rcases List.mem_cons.mp hx with rfl | hx
    · exact ⟨y, List.mem_cons_self .., hfirst⟩
    · obtain ⟨y', hy', hR⟩ := ih hx
      exact ⟨y', List.mem_cons_of_mem _ hy', hR⟩

/-- A number that fits is kept when it is read back. -/
theorem toNat_ofNat_of_fits {limit : UInt64} (h : limit.toNat < 2 ^ 32) :
    (UInt32.ofNat limit.toNat).toNat = limit.toNat :=
  UInt32.toNat_ofNat_of_lt' h

/-- What Pocket holds of an object's limit bounds what the filter contributes. -/
theorem RelayServices.holdsLimit {services : RelayServices} {limits : BaseRelayAllLimits}
    (hservices : services.limits = limits.requests) {object : JsonValue} {filter : PocketFilter}
    (hnone : explicitLimit object = none → filter.limit = PocketFilter.noLimit)
    (hsome : ∀ limit, explicitLimit object = some limit → limit.toNat < 2 ^ 32 ∧
      filter.limit = UInt32.ofNat limit.toNat) : services.HoldsLimit object filter where
  explicit limit hlimit auth part hpart := by
    obtain ⟨hlength, hdefault⟩ := hpart.length_le
    obtain ⟨hfits, hstored⟩ := hsome limit hlimit
    have hnumber := toNat_ofNat_of_fits hfits
    unfold BaseRelayRequestLimits.effectivePocketFilterLimit at hlength
    split at hlength
    · next habsent =>
      have hbound := hdefault habsent
      have hlarge : limit.toNat = 2 ^ 32 - 1 := by
        rw [← hnumber, ← hstored, habsent]
        rfl
      omega
    · rwa [hstored, hnumber] at hlength
  default habsent auth part hpart := by
    have hlength := hpart.length_le.1
    have heffective : services.limits.effectivePocketFilterLimit filter =
        services.limits.defaultLimit := if_pos (hnone habsent)
    rwa [heffective] at hlength
  charged auth part hpart := by
    have hlength := hpart.length_le.1
    have hbound : services.limits.effectivePocketFilterLimit filter ≤ u64Max := by
      unfold BaseRelayRequestLimits.effectivePocketFilterLimit
      split
      · rw [hservices]
        exact Nat.le_pred_of_lt limits.defaultLimit.toNat_lt
      · have hsmall := filter.limit.toNat_lt
        have hlarge : u64Max = 2 ^ 64 - 1 := rfl
        omega
    rw [BaseRelayRequestLimits.pocketFilterComplexity_eq]
    omega

/-- **Whether the limits of a request are enforced.** What a filter contributes to a reply is never
more than the limit that its object names, or than the default limit, and is never more than it is
charged. The limits that the objects name are none above the largest limit, unless one of them is
the largest number of 32 bits and that is above the largest limit. -/
theorem explicit_limits_enforced_iff {parsers : ClientParsers} (hpocket : parsers.StoresLimit)
    {limits : BaseRelayAllLimits} {services : RelayServices}
    (hservices : services.limits = limits.requests) {raw : Text} {subscriptionId : SubscriptionId}
    {filters : List PocketFilter} {searchPresent : Bool}
    (hparse : parsers.parseRuntimeClientMessage raw =
      .ok (.req subscriptionId filters searchPresent))
    (hvalid : limits.requests.validatePocketFilters filters = .ok ()) :
    ∃ command id objects, parsers.messageValues raw = .ok (command :: id :: objects) ∧
      (((∀ object ∈ objects, ∀ limit, explicitLimit object = some limit →
            limit.toNat ≤ limits.maxLimit.toNat) ∧
          List.Forall₂ services.HoldsLimit objects filters) ↔
        ∀ object ∈ objects, explicitLimit object = some 0xFFFFFFFF →
          2 ^ 32 - 1 ≤ limits.maxLimit.toNat) ∧
      ∀ auth report, services.queryEventsReport filters auth = .ok report →
        ∃ parts, List.Forall₂ (services.Contributes auth) filters parts ∧
          report.events = BaseRelay.sortAndDedupeQueryEvents parts.flatten := by
  obtain ⟨command, id, objects, hvalues, hobjects⟩ := objects_of_parse hparse
  obtain ⟨_, _, hchecked, _⟩ := BaseRelayRequestLimits.validatePocketFilters_eq_ok.mp hvalid
  have hlimits : List.Forall₂ (fun object filter =>
      (explicitLimit object = none → filter.limit = PocketFilter.noLimit) ∧
        ∀ limit, explicitLimit object = some limit → limit.toNat < 2 ^ 32 ∧
          filter.limit = UInt32.ofNat limit.toNat) objects filters := by
    refine hobjects.imp fun object filter ⟨parsed, hparsed, heq⟩ => ?_
    exact heq ▸ limit_of_parseFilter hpocket hparsed
  refine ⟨command, id, objects, hvalues, ⟨fun ⟨hbelow, _⟩ object hmem hmax => ?_, fun hmax =>
    ⟨fun object hmem limit hlimit => ?_, ?_⟩⟩, fun auth report hreport =>
      RelayServices.parts_of_queryEventsReport hreport⟩
  · exact hbelow object hmem _ hmax
  · obtain ⟨filter, hfilter, _, hstored⟩ := exists_of_forall₂ hlimits hmem
    obtain ⟨hfits, hstored⟩ := hstored limit hlimit
    obtain ⟨_, hchecked⟩ := BaseRelayRequestLimits.validatePocketFilter_eq_ok.mp
      (hchecked filter hfilter)
    by_cases hnone : filter.limit = PocketFilter.noLimit
    · have hlarge : limit.toNat = 2 ^ 32 - 1 := by
        rw [← toNat_ofNat_of_fits hfits, ← hstored, hnone]
        rfl
      have heq : limit = 0xFFFFFFFF := UInt64.toNat_inj.mp hlarge
      rw [hlarge]
      exact hmax object hmem (heq ▸ hlimit)
    · have hle := hchecked hnone
      rwa [hstored, toNat_ofNat_of_fits hfits] at hle
  · exact hlimits.imp fun object filter ⟨hnone, hsome⟩ =>
      RelayServices.holdsLimit hservices hnone hsome

namespace Sample

/-- The limit of an object as it is written, if there is one. -/
def writtenLimit (object : JsonValue) : Option (Option UInt64) :=
  (object.asObject.bind fun fields => fields.lookup "limit".toList).map JsonValue.asU64

/-- The compact printer, for objects whose limit is read as it was. -/
def limitJson : SerdeJson where
  toText value :=
    match compactJson.fromText (compactJson.toText value) with
    | .ok read => if writtenLimit read = writtenLimit value then compactJson.toText value else []
    | .error _ => []
  fromText := compactJson.fromText

/-- A filter of a limit and nothing else. -/
def onlyLimit (limit : UInt32) : PocketFilter :=
  ⟨[], [], [], [], PocketTime.min, PocketTime.max, limit⟩

/-- A Pocket that reads filters of a limit and nothing else. -/
def limitParsers : ClientParsers where
  json := limitJson
  typeError _ expected := s!"invalid type, expected {expected}"
  parsePocketEventJson _ := .error "unsupported"
  parsePocketFilterJson text :=
    match compactJson.fromText text with
    | .ok (.object fields) =>
      if fields.length ≤ 1 then
        match writtenLimit (.object fields) with
        | none => if fields.isEmpty then .ok (onlyLimit PocketFilter.noLimit)
          else .error "unsupported"
        | some (some limit) =>
          if limit.toNat < 2 ^ 32 then .ok (onlyLimit (UInt32.ofNat limit.toNat))
            else .error "range"
        | some none => .error "unsupported"
      else
        .error "unsupported"
    | _ => .error "unsupported"

/-- What is printed of an object and read again names the same limit. -/
theorem read_of_limitJson {value : JsonValue} {filter : PocketFilter}
    (h : limitParsers.parsePocketFilterJson (limitJson.toText value) = .ok filter) :
    ∃ read, compactJson.fromText (limitJson.toText value) = .ok read ∧
      writtenLimit read = writtenLimit value := by
  have hempty : limitParsers.parsePocketFilterJson [] ≠ .ok filter := fun heq => (nomatch heq)
  have htext : limitJson.toText value =
      match compactJson.fromText (compactJson.toText value) with
      | .ok read => if writtenLimit read = writtenLimit value then compactJson.toText value else []
      | .error _ => [] := rfl
  cases hread : compactJson.fromText (compactJson.toText value) with
  | error error =>
    rw [htext, hread] at h
    exact absurd h hempty
  | ok read =>
    rw [hread] at htext
    dsimp only at htext
    split at htext
    · next hsame =>
      rw [htext]
      exact ⟨read, hread, hsame⟩
    · rw [htext] at h
      exact absurd h hempty

/-- The parsers of the sample store the limit as it was stated. -/
theorem limitParsers_storesLimit : limitParsers.StoresLimit := by
  intro fields filter h
  have hwritten : writtenLimit fields.toValue = (fields["limit".toList]?).map JsonValue.asU64 := by
    have hlookup : fields.toList.lookup "limit".toList = fields["limit".toList]? :=
      BTreeMap.lookup_toList
    rw [← hlookup]
    rfl
  obtain ⟨read, hread, hsame⟩ := read_of_limitJson h
  have h : limitParsers.parsePocketFilterJson (limitJson.toText fields.toValue) = .ok filter := h
  unfold limitParsers at h
  dsimp only at h
  rw [hread] at h
  rw [hwritten] at hsame
  cases read with
  | object fields' =>
    dsimp only at h
    rw [hsame] at h
    split at h
    · cases hlimit : fields["limit".toList]? with
      | none =>
        rw [hlimit] at h
        dsimp only [Option.map_none] at h
        split at h
        · cases h
          exact ⟨fun _ => rfl, fun limit heq => (nomatch heq)⟩
        · cases h
      | some value =>
        rw [hlimit, Option.map_some] at h
        refine ⟨fun heq => (nomatch heq), fun limit heq hfits => ?_⟩
        cases heq
        rw [JsonValue.asU64_unsigned] at h
        dsimp only at h
        rw [if_pos hfits] at h
        cases h
        rfl
    · cases h
  | _ => cases h

/-- A request for a number of events. -/
def askFor (limit : UInt64) : Text :=
  compactJson.toText (.array [.string "REQ".toList, .string "farm".toList,
    .object [("limit".toList, .unsigned limit)]])

end Sample

section
open Sample

/-- How the sample reads a message with one filter. -/
theorem messageValues_askFor (limit : UInt64) :
    limitParsers.messageValues (askFor limit) = .ok [.string "REQ".toList, .string "farm".toList,
      .object [("limit".toList, .unsigned limit)]] := by
  have hcanonical : (JsonValue.array [.string "REQ".toList, .string "farm".toList,
      .object [("limit".toList, .unsigned limit)]]).Canonical := by
    refine .array fun item hitem => ?_
    simp only [List.mem_cons, List.not_mem_nil, or_false] at hitem
    rcases hitem with rfl | rfl | rfl
    · exact .string _
    · exact .string _
    · refine .object (List.pairwise_singleton _ _) fun field hfield => ?_
      cases List.mem_singleton.mp hfield
      exact .posInt _
  have hread := compactJson_inverse.fromText_toText _ hcanonical
  have hread : limitParsers.json.fromText (askFor limit) = _ := hread
  rw [ClientParsers.messageValues, hread]
  rfl

/-- The theorem at a client that asks for five events: the request is accepted, and the limit that
it names is within the largest. -/
theorem explicit_limits_enforced_iff_askFor :
    limitParsers.messageValues (askFor 5) = .ok [.string "REQ".toList, .string "farm".toList,
      .object [("limit".toList, .unsigned 5)]] ∧
    ∀ object ∈ [JsonValue.object [("limit".toList, .unsigned 5)]],
      ∀ limit, explicitLimit object = some limit → limit.toNat ≤ 500 := by
  have hparse : limitParsers.parseRuntimeClientMessage (askFor 5) =
      .ok (.req ⟨"farm".toList, by decide⟩ [onlyLimit 5] false) := by
    decide +kernel
  have hvalid : (relayLimits (limitsDocument 100 10000)).requests.validatePocketFilters
      [onlyLimit 5] = .ok () := by
    decide +kernel
  have hservices : (limited (limitsDocument 100 10000)).limits =
      (relayLimits (limitsDocument 100 10000)).requests := rfl
  obtain ⟨command, id, objects, hvalues, henforced, _⟩ :=
    explicit_limits_enforced_iff limitParsers_storesLimit hservices hparse hvalid
  rw [messageValues_askFor] at hvalues
  cases hvalues
  refine ⟨messageValues_askFor 5, (henforced.mpr fun object hobject hmax => ?_).1⟩
  cases List.mem_singleton.mp hobject
  exact absurd hmax (by decide +kernel)

/-- The largest number of 32 bits is what Pocket writes where there is no limit. A client that asks
for so many events passes the check, although the largest limit is 500, and is given the default. -/
theorem largest_limit_passes :
    limitParsers.StoresLimit ∧ limitParsers.messageValues (askFor 0xFFFFFFFF) =
        .ok [.string "REQ".toList, .string "farm".toList,
          .object [("limit".toList, .unsigned 0xFFFFFFFF)]] ∧
    limitParsers.parseRuntimeClientMessage (askFor 0xFFFFFFFF) =
        .ok (.req ⟨"farm".toList, by decide⟩ [onlyLimit PocketFilter.noLimit] false) ∧
      (relayLimits (limitsDocument 100 10000)).requests.validatePocketFilters
        [onlyLimit PocketFilter.noLimit] = .ok () ∧
      explicitLimit (.object [("limit".toList, .unsigned 0xFFFFFFFF)]) = some 0xFFFFFFFF ∧
      (relayLimits (limitsDocument 100 10000)).requests.maxLimit = 500 := by
  exact ⟨limitParsers_storesLimit, messageValues_askFor _, by decide +kernel, by decide +kernel,
    by decide +kernel, rfl⟩

end

end Tangle
