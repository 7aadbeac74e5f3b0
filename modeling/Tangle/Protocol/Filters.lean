import Tangle.Protocol.Events

/-!
# Filters and their JSON form

A filter is written as an object that leaves out what does not constrain it, and read field by
field. The two agree on every field but two: the reader takes the values of `#e` and `#p` for ids
and public keys and refuses any other text, while a filter built from its parts
(`Filter.fromParts`) keeps whatever texts it is given there. So a filter comes back from its JSON
form exactly when those values are hexadecimal (`filterFromValue_filterToValue_iff`).
-/

namespace Tangle

/-- `Filter`: what is asked for, each part left out where nothing is. -/
structure Filter where
  ids : List EventId
  authors : List PublicKeyHex
  kinds : List Kind
  tagFilters : BTreeMap TagName (List Text)
  since : Option UInt64
  «until» : Option UInt64
  limit : Option UInt64
  search : Option Text

/-- The error for an item of the wrong type. -/
def filterArrayError (field : Text) : String :=
  s!"filter field `{field.toMessage}` must be a non-empty array"

/-- The error for a field that is wrong, and why. -/
def filterFieldError (field : Text) (reason : String) : String :=
  s!"filter field `{field.toMessage}` is invalid: {reason}"

/-- The field that holds the values of a tag. -/
def TagName.field (name : TagName) : Text :=
  '#' :: name.text

namespace Filter

/-- `Filter::empty`. -/
def empty : Filter :=
  ⟨[], [], [], ∅, none, none, none, none⟩

/-- What is checked of the values of one tag of a filter that is built from its parts. -/
def checkTag (name : TagName) (values : List Text) : Except String Unit :=
  if !name.isIndexable then
    .error (filterFieldError name.field "tag name must be a single ASCII letter")
  else if values.isEmpty then
    .error (filterArrayError name.field)
  else
    .ok ()

/-- `Filter::from_parts`: each tag filter is checked, and nothing else. -/
def fromParts (ids : List EventId) (authors : List PublicKeyHex) (kinds : List Kind)
    (tagFilters : BTreeMap TagName (List Text)) (since «until» limit : Option UInt64)
    (search : Option Text) : Except String Filter := do
  forM tagFilters.toList fun (name, values) => checkTag name values
  .ok ⟨ids, authors, kinds, tagFilters, since, «until», limit, search⟩

/-- `without_limit`. -/
def withoutLimit (filter : Filter) : Filter :=
  { filter with limit := none }

/-- `with_limit`. -/
def withLimit (filter : Filter) (limit : UInt64) : Filter :=
  { filter with limit := some limit }

end Filter

/-! ## Writing -/

/-- Writes a list of values unless it is empty. -/
def JsonMap.insertList (object : JsonMap) (field : String) (items : List JsonValue) : JsonMap :=
  if items.isEmpty then object else object.insert field.toList (.array items)

/-- Writes a value that is there. -/
def JsonMap.insertSome (object : JsonMap) (field : String) (value : Option JsonValue) : JsonMap :=
  value.elim object fun value => object.insert field.toList value

/-- The fields a filter is written with. -/
def filterFields (filter : Filter) : JsonMap :=
  let object := (∅ : JsonMap).insertList "ids" (filter.ids.map fun id => .string id.text)
  let object := object.insertList "authors" (filter.authors.map fun author => .string author.text)
  let object := object.insertList "kinds" (filter.kinds.map fun kind => .unsigned kind.asU64)
  let object := filter.tagFilters.toList.foldl (fun object (name, values) =>
    object.insert name.field (JsonValue.texts values)) object
  let object := object.insertSome "since" (filter.since.map .unsigned)
  let object := object.insertSome "until" (filter.until.map .unsigned)
  let object := object.insertSome "limit" (filter.limit.map .unsigned)
  object.insertSome "search" (filter.search.map .string)

/-- `filter_to_value`: the parts that are there, under the names of the protocol. -/
def filterToValue (filter : Filter) : JsonValue :=
  (filterFields filter).toValue

/-! ## Reading -/

/-- `parse_string_filter_array`: an item that is no string is an error, and so is one that does not
parse. -/
def parseStringFilterArray {α : Type} (field : Text) (value : JsonValue)
    (parseItem : Text → Except String α) : Except String (List α) := do
  let array ← Except.okOr value.asArray (filterArrayError field)
  if array.isEmpty then
    .error (filterArrayError field)
  else
    array.mapM fun item => do
      parseItem (← Except.okOr item.asStr
        s!"filter field `{field.toMessage}` values must be strings")

/-- `parse_u64_filter_array`. -/
def parseU64FilterArray {α : Type} (field : Text) (value : JsonValue)
    (parseItem : UInt64 → Except String α) : Except String (List α) := do
  let array ← Except.okOr value.asArray (filterArrayError field)
  if array.isEmpty then
    .error (filterArrayError field)
  else
    array.mapM fun item => do
      parseItem (← Except.okOr item.asU64
        s!"filter field `{field.toMessage}` values must be unsigned integers")

/-- `parse_u64_filter_field`. -/
def parseU64FilterField (field : Text) (value : JsonValue) : Except String UInt64 :=
  Except.okOr value.asU64 s!"filter field `{field.toMessage}` must be an unsigned integer"

/-- `parse_string_filter_field`. -/
def parseStringFilterField (field : Text) (value : JsonValue) : Except String Text :=
  Except.okOr value.asStr s!"filter field `{field.toMessage}` must be a string"

/-- `parse_event_id_filter_array`. -/
def parseEventIdFilterArray (field : Text) (value : JsonValue) : Except String (List EventId) :=
  parseStringFilterArray field value fun item =>
    (EventId.new item).mapError (filterFieldError field)

/-- `parse_pubkey_filter_array`. -/
def parsePubkeyFilterArray (field : Text) (value : JsonValue) :
    Except String (List PublicKeyHex) :=
  parseStringFilterArray field value fun item =>
    (PublicKeyHex.new item).mapError (filterFieldError field)

/-- `parse_kind_filter_array`. -/
def parseKindFilterArray (field : Text) (value : JsonValue) : Except String (List Kind) :=
  parseU64FilterArray field value fun item =>
    (Kind.new item.toNat).mapError (filterFieldError field)

/-- One value of a tag: those of `e` are ids and those of `p` public keys. -/
def parseTagValue (field name item : Text) : Except String Text :=
  if name = "e".toList then
    (fun _ => item) <$> (EventId.new item).mapError (filterFieldError field)
  else if name = "p".toList then
    (fun _ => item) <$> (PublicKeyHex.new item).mapError (filterFieldError field)
  else
    .ok item

/-- Reads the field of a tag, whose name stands after the `#`. -/
def parseTagFilterField (field name : Text) (value : JsonValue) :
    Except String (TagName × List Text) := do
  let tagName ← (TagName.new name).mapError (filterFieldError field)
  if !tagName.isIndexable then
    .error (filterFieldError field "tag name must be a single ASCII letter")
  else do
    let values ← parseStringFilterArray field value (parseTagValue field name)
    .ok (tagName, values)

/-- Reads one field into the filter. -/
def Filter.readField (filter : Filter) (field : Text) (raw : JsonValue) : Except String Filter :=
  if field = "ids".toList then do
    .ok { filter with ids := ← parseEventIdFilterArray field raw }
  else if field = "authors".toList then do
    .ok { filter with authors := ← parsePubkeyFilterArray field raw }
  else if field = "kinds".toList then do
    .ok { filter with kinds := ← parseKindFilterArray field raw }
  else if field = "since".toList then do
    .ok { filter with since := some (← parseU64FilterField field raw) }
  else if field = "until".toList then do
    .ok { filter with «until» := some (← parseU64FilterField field raw) }
  else if field = "limit".toList then do
    .ok { filter with limit := some (← parseU64FilterField field raw) }
  else if field = "search".toList then do
    .ok { filter with search := some (← parseStringFilterField field raw) }
  else match field with
    | '#' :: name => do
      let (name, values) ← parseTagFilterField field name raw
      .ok { filter with tagFilters := filter.tagFilters.insert name values }
    | unsupported => .error s!"filter field `{unsupported.toMessage}` is unsupported"

/-- `filter_from_value`: the fields are read in the order of the object, and an unknown one is an
error. -/
def filterFromValue (value : JsonValue) : Except String Filter := do
  let object ← Except.okOr value.asObject "filter must be a JSON object"
  object.foldlM (fun filter (field, raw) => filter.readField field raw) Filter.empty

/-- The filters the program can hold. -/
inductive Filter.Obtainable : Filter → Prop
  | empty : Obtainable Filter.empty
  | fromParts {ids : List EventId} {authors : List PublicKeyHex} {kinds : List Kind}
      {tagFilters : BTreeMap TagName (List Text)} {since «until» limit : Option UInt64}
      {search : Option Text} {filter : Filter}
      (built : Filter.fromParts ids authors kinds tagFilters since «until» limit search =
        .ok filter) : Obtainable filter
  | withLimit {filter : Filter} (limit : UInt64) (held : Obtainable filter) :
      Obtainable (filter.withLimit limit)
  | withoutLimit {filter : Filter} (held : Obtainable filter) : Obtainable filter.withoutLimit
  | filterFromValue {value : JsonValue} {filter : Filter}
      (read : filterFromValue value = .ok filter) : Obtainable filter

end Tangle
