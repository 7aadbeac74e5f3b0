import Tangle.Protocol.Json
import Tangle.Protocol.Scalars

/-!
# Events and their JSON form

An event is read from an object of seven fields, each checked when it is read; an event that exists
already passed these checks, so the object written for it is read as that event
(`eventFromValue_eventToValue`), and so is what is printed of the object.
-/

namespace Tangle

/-! ## Tags -/

/-- The name of a tag, a text that is not empty. -/
structure TagName where
  text : Text
  nonempty : text ≠ []
deriving DecidableEq

namespace TagName

/-- `TagName::new`: a blank name is refused. -/
def new (value : Text) : Except String TagName :=
  if h : value = [] then .error "tag name must not be empty" else .ok ⟨value, h⟩

/-- A name is told by its text. -/
theorem text_injective : Function.Injective text := by
  intro ⟨a, ha⟩ ⟨b, hb⟩ hab
  cases hab
  rfl

instance : LinearOrder TagName :=
  LinearOrder.lift' text text_injective

/-- A name is made of a text exactly when it is that text's. -/
theorem new_eq_ok {value : Text} {name : TagName} : new value = .ok name ↔ name.text = value := by
  unfold new
  split
  · next hempty => simp [hempty, name.nonempty]
  · rw [Except.ok.injEq, ← text_injective.eq_iff, eq_comm]

/-- The text of a name makes the name again. -/
@[simp] theorem new_text (name : TagName) : new name.text = .ok name :=
  new_eq_ok.mpr rfl

/-- A tag name that can be searched: one ASCII letter. -/
def isIndexable (name : TagName) : Bool :=
  match name.text with
  | [letter] => letter.isAlpha
  | _ => false

end TagName

/-- A tag: its name, then its values. -/
structure Tag where
  values : List Text
  named : ∃ name ∈ values.head?, name ≠ []

namespace Tag

/-- `Tag::new`: the first value is the name, and there must be one. -/
def new (values : List Text) : Except String Tag :=
  match h : values.head? with
  | none => .error "tag must not be empty"
  | some name =>
    match hname : TagName.new name with
    | .error reason => .error reason
    | .ok tagName => .ok ⟨values, name, h, TagName.new_eq_ok.mp hname ▸ tagName.nonempty⟩

/-- A tag is rebuilt from its own values. -/
@[simp] theorem new_values (tag : Tag) : new tag.values = .ok tag := by
  obtain ⟨name, hname, hne⟩ := tag.named
  unfold new
  split
  · next h => simp [h] at hname
  · next first hfirst =>
    cases hname.symm.trans hfirst
    split
    · next h => simp [TagName.new, hne] at h
    · rfl

end Tag

/-! ## Events -/

/-- `UnsignedEvent`: what the id and the signature of an event are made over. -/
structure UnsignedEvent where
  pubkey : PublicKeyHex
  createdAt : UInt64
  kind : Kind
  tags : List Tag
  content : Text

/-- `Event`: with its id and its signature. -/
structure Event where
  id : EventId
  unsigned : UnsignedEvent
  sig : SignatureHex

/-- What is wrong with the shape of an event. -/
structure EventShapeError where
  message : String
deriving DecidableEq

namespace EventShapeError

/-- `EventShapeError::missing_field`. -/
def missingField (field : String) : EventShapeError :=
  ⟨s!"event field `{field}` is missing"⟩

/-- `EventShapeError::invalid_field`. -/
def invalidField (field reason : String) : EventShapeError :=
  ⟨s!"event field `{field}` is invalid: {reason}"⟩

end EventShapeError

/-- The number of a kind. -/
def Kind.asU64 (kind : Kind) : UInt64 :=
  UInt64.ofNat kind.value

/-- The number of a kind makes the kind again. -/
@[simp] theorem Kind.new_asU64 (kind : Kind) : Kind.new kind.asU64.toNat = .ok kind := by
  have hlt := kind.lt
  have hmod : kind.value % 2 ^ 64 = kind.value := Nat.mod_eq_of_lt (by omega)
  rw [Kind.asU64, UInt64.toNat_ofNat', hmod, Kind.new_value]

/-- The fields an event is written with. -/
def eventFields (event : Event) : List (String × JsonValue) :=
  [("id", .string event.id.text),
    ("pubkey", .string event.unsigned.pubkey.text),
    ("created_at", .unsigned event.unsigned.createdAt),
    ("kind", .unsigned event.unsigned.kind.asU64),
    ("tags", .array (event.unsigned.tags.map fun tag => JsonValue.texts tag.values)),
    ("content", .string event.unsigned.content),
    ("sig", .string event.sig.text)]

/-- `event_to_value`: the fields under the names of the protocol. -/
def eventToValue (event : Event) : JsonValue :=
  (JsonMap.ofFields (eventFields event)).toValue

/-- `field_value`: a field that is not there is an error that names it. -/
def fieldValue (object : List (Text × JsonValue)) (field : String) :
    Except EventShapeError JsonValue :=
  Except.okOr (object.lookup field.toList) (.missingField field)

/-- `field_string`: a field that is no string is an error that names it. -/
def fieldString (object : List (Text × JsonValue)) (field : String) :
    Except EventShapeError Text := do
  Except.okOr (← fieldValue object field).asStr (.invalidField field "must be a string")

/-- `field_u64`: a field that is no unsigned number is an error that names it. -/
def fieldU64 (object : List (Text × JsonValue)) (field : String) :
    Except EventShapeError UInt64 := do
  Except.okOr (← fieldValue object field).asU64 (.invalidField field "must be an unsigned integer")

/-- `tag_from_value`: a list of strings, the first of them a name. -/
def tagFromValue (tag : JsonValue) : Except EventShapeError Tag := do
  let values ← (← Except.okOr tag.asArray (.invalidField "tags" "tag must be an array")).mapM
    fun part => Except.okOr part.asStr (.invalidField "tags" "tag elements must be strings")
  (Tag.new values).mapError (.invalidField "tags")

/-- `tags_from_value`: each item is a tag. -/
def tagsFromValue (value : JsonValue) : Except EventShapeError (List Tag) := do
  (← Except.okOr value.asArray (.invalidField "tags" "must be an array")).mapM tagFromValue

/-- `event_from_value`: the fields are read in the order of the source, and the first that is wrong
is the error. -/
def eventFromValue (value : JsonValue) : Except EventShapeError Event := do
  let object ← Except.okOr value.asObject (.invalidField "event" "must be an object")
  let id ← (EventId.new (← fieldString object "id")).mapError (.invalidField "id")
  let pubkey ← (PublicKeyHex.new (← fieldString object "pubkey")).mapError (.invalidField "pubkey")
  let createdAt ← fieldU64 object "created_at"
  let kind ← (Kind.new (← fieldU64 object "kind").toNat).mapError (.invalidField "kind")
  let tags ← tagsFromValue (← fieldValue object "tags")
  let content ← fieldString object "content"
  let sig ← (SignatureHex.new (← fieldString object "sig")).mapError (.invalidField "sig")
  .ok ⟨id, ⟨pubkey, createdAt, kind, tags, content⟩, sig⟩

/-- The text of an event, which is not empty. -/
structure RawEventJson where
  text : Text
  nonempty : text ≠ []

/-- `RawEventJson::new`: a blank text is refused. -/
def RawEventJson.new (value : Text) : Except EventShapeError RawEventJson :=
  if h : value = [] then .error ⟨"raw event JSON must not be empty"⟩ else .ok ⟨value, h⟩

/-- `parse_event_json`: the text is parsed as JSON and its value read as an event. -/
def parseEventJson (json : SerdeJson) (raw : RawEventJson) : Except EventShapeError Event := do
  let value ← (json.valueWithoutDuplicateFields raw.text).mapError fun source =>
    .invalidField "event" s!"invalid JSON: {source}"
  eventFromValue value

/-! ## The round trip -/

/-- The values of a tag are read as its values. -/
@[simp] theorem tagFromValue_texts (tag : Tag) :
    tagFromValue (JsonValue.texts tag.values) = .ok tag := by
  have hparts : (tag.values.map JsonValue.string).mapM
      (fun part => Except.okOr part.asStr
        (EventShapeError.invalidField "tags" "tag elements must be strings")) =
        .ok tag.values := by
    rw [Except.mapM_eq_ok, List.forall₂_map_left_iff]
    exact List.forall₂_same.mpr fun _ _ => rfl
  rw [tagFromValue, JsonValue.texts, JsonValue.asArray, Except.okOr_some, Except.ok_bind, hparts,
    Except.ok_bind, Tag.new_values]
  rfl

section

variable {object : JsonMap} {field : String}

/-- A field that the object holds is read as its value. -/
theorem fieldValue_toList {value : JsonValue} (h : object[field.toList]? = some value) :
    fieldValue object.toList field = .ok value := by
  rw [fieldValue, BTreeMap.lookup_toList, h, Except.okOr_some]

/-- A field that holds a string is read as it. -/
theorem fieldString_toList {text : Text} (h : object[field.toList]? = some (.string text)) :
    fieldString object.toList field = .ok text := by
  rw [fieldString, fieldValue_toList h, Except.ok_bind]
  rfl

/-- A field that holds an unsigned number is read as it. -/
theorem fieldU64_toList {n : UInt64} (h : object[field.toList]? = some (.unsigned n)) :
    fieldU64 object.toList field = .ok n := by
  rw [fieldU64, fieldValue_toList h, Except.ok_bind]
  rfl

end

/-- The object written for an event is read as the event. -/
theorem eventFromValue_eventToValue (event : Event) :
    eventFromValue (eventToValue event) = .ok event := by
  have hread : (event.unsigned.tags.map fun tag => JsonValue.texts tag.values).mapM tagFromValue =
      .ok event.unsigned.tags := by
    rw [Except.mapM_eq_ok, List.forall₂_map_left_iff]
    exact List.forall₂_same.mpr fun tag _ => tagFromValue_texts tag
  have hfield : ∀ field value, (field, value) ∈ eventFields event →
      (JsonMap.ofFields (eventFields event))[field.toList]? = some value :=
    fun field value => JsonMap.getElem?_ofFields (by simp [eventFields])
  have hid := fieldString_toList (hfield "id" (.string event.id.text) (by simp [eventFields]))
  have hpubkey := fieldString_toList
    (hfield "pubkey" (.string event.unsigned.pubkey.text) (by simp [eventFields]))
  have hcreated := fieldU64_toList
    (hfield "created_at" (.unsigned event.unsigned.createdAt) (by simp [eventFields]))
  have hkind := fieldU64_toList
    (hfield "kind" (.unsigned event.unsigned.kind.asU64) (by simp [eventFields]))
  have htags := fieldValue_toList (hfield "tags"
    (.array (event.unsigned.tags.map fun tag => JsonValue.texts tag.values))
      (by simp [eventFields]))
  have hcontent := fieldString_toList
    (hfield "content" (.string event.unsigned.content) (by simp [eventFields]))
  have hsig := fieldString_toList (hfield "sig" (.string event.sig.text) (by simp [eventFields]))
  simp only [eventFromValue, eventToValue, JsonMap.toValue, JsonValue.asObject, Except.okOr_some,
    Except.ok_bind, hid, hpubkey, hcreated, hkind, htags, hcontent, hsig, tagsFromValue,
    JsonValue.asArray, hread, Hex64.new_text, Kind.new_asU64, SignatureHex.new_text,
    Except.mapError_ok]

/-- The object written for an event is canonical. -/
theorem canonical_eventToValue (event : Event) : (eventToValue event).Canonical := by
  refine JsonMap.canonical_ofFields fun field hfield => ?_
  simp only [eventFields, List.mem_cons, List.not_mem_nil, or_false] at hfield
  rcases hfield with rfl | rfl | rfl | rfl | rfl | rfl | rfl
  · exact .string _
  · exact .string _
  · exact .posInt _
  · exact .posInt _
  · refine .array fun item hitem => ?_
    obtain ⟨tag, _, rfl⟩ := List.mem_map.mp hitem
    exact JsonValue.canonical_texts tag.values
  · exact .string _
  · exact .string _

/-- What is printed of an event's object is read as the event. -/
theorem parseEventJson_eventToValue {json : SerdeJson} (hjson : json.Inverse) (event : Event) :
    (RawEventJson.new (json.toText (eventToValue event)) >>= parseEventJson json) =
      .ok event := by
  have hcanonical := canonical_eventToValue event
  rw [RawEventJson.new, dif_neg (hjson.toText_ne_nil hcanonical), Except.ok_bind, parseEventJson,
    hjson.read hcanonical, Except.mapError_ok, Except.ok_bind]
  exact eventFromValue_eventToValue event

end Tangle
