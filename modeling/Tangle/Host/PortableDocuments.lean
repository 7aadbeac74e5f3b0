import Tangle.Host.PortableChecks
import Tangle.Host.BackupDocuments

/-!
# The documents of portable backups

A reader of the documents that a portable backup consists of. The lines of events are printed
without white space, and a printed event is read as the event
(`SignedPocketEvent.ofJson_pocketEventJson`), so a host can read what it writes
(`PortableHost.readsEvents_of_compact`). The manifest is printed over lines with its fields in the
order of their declaration, and is read as the manifest
(`PortableRelayBackupManifest.form_readsBack`).
-/

namespace Tangle

/-! ## Events -/

namespace SignedPocketEvent

/-- A tag as the list of its values' bytes. -/
def tagOfJson (value : JsonValue) : Except Text (List (List UInt8)) := do
  let parts ← Except.okOr value.asArray "tag".toList
  parts.mapM fun part => (Except.okOr part.asStr "tag".toList).map Text.toBytes

/-- A kind, if the number is one of sixteen bits. -/
def kindOfJson (value : JsonValue) : Option UInt16 := do
  let kind ← value.asU64
  if kind.toUInt16.toUInt64 = kind then some kind.toUInt16 else none

/-- Reads an event. -/
def ofJson (value : JsonValue) : Except Text SignedPocketEvent := do
  let id ← jsonField value "id" fun id => (id.asStr.map EventId.new).bind Except.toOption
  let pubkey ← jsonField value "pubkey" fun key =>
    (key.asStr.map PublicKeyHex.new).bind Except.toOption
  let createdAt ← jsonField value "created_at" JsonValue.asU64
  let kind ← jsonField value "kind" kindOfJson
  let tags ← jsonField value "tags" JsonValue.asArray
  let tags ← tags.mapM tagOfJson
  let content ← jsonField value "content" JsonValue.asStr
  let sig ← jsonField value "sig" fun sig => (sig.asStr.map SignatureHex.new).bind Except.toOption
  return ⟨id, pubkey, createdAt, kind, tags, content.toBytes, sig⟩

/-- A tag of texts is read back. -/
theorem tagOfJson_texts {host : PortableHost} {tag : List (List UInt8)} {texts : List Text}
    (h : tag.mapM host.utf8Text = .ok texts) : tagOfJson (.texts texts) = .ok tag := by
  have hparts : (texts.map JsonValue.string).mapM (fun part =>
      (Except.okOr part.asStr "tag".toList).map Text.toBytes) = .ok tag := by
    rw [Except.mapM_eq_ok, List.forall₂_map_left_iff]
    refine List.Forall₂.flip (Except.mapM_eq_ok.mp h |>.imp ?_)
    intro part text hpart
    rw [PortableHost.utf8Text, Except.okOr_eq_ok] at hpart
    exact congrArg Except.ok (Text.toBytes_of_ofBytes? hpart)
  exact hparts

/-- What is printed of an event is read as the event. -/
theorem ofJson_pocketEventJson {host : PortableHost} {event : SignedPocketEvent} {value : JsonValue}
    (h : host.pocketEventJson event = .ok value) : ofJson value = .ok event := by
  unfold PortableHost.pocketEventJson at h
  obtain ⟨tags, htags, h⟩ := Except.bind_eq_ok.mp h
  obtain ⟨content, hcontent, h⟩ := Except.bind_eq_ok.mp h
  cases h
  have hnodup : (["id", "pubkey", "created_at", "kind", "tags", "content", "sig"]).Nodup := by
    decide
  have htagsRead : (tags.map JsonValue.texts).mapM tagOfJson = .ok event.tags := by
    rw [Except.mapM_eq_ok, List.forall₂_map_left_iff]
    refine List.Forall₂.flip (Except.mapM_eq_ok.mp htags |>.imp ?_)
    intro tag texts htag
    exact tagOfJson_texts htag
  have hcontentRead : content.toBytes = event.content := by
    rw [PortableHost.utf8Text, Except.okOr_eq_ok] at hcontent
    exact Text.toBytes_of_ofBytes? hcontent
  have hkind : kindOfJson (.unsigned event.kind.toUInt64) = some event.kind := by
    rw [kindOfJson, JsonValue.unsigned, JsonValue.asU64]
    simp
  unfold ofJson
  have hid : (EventId.new event.id.text).toOption = some event.id := by
    rw [EventId.new, Hex64.new_text]
    rfl
  have hpubkey : (PublicKeyHex.new event.pubkey.text).toOption = some event.pubkey := by
    rw [PublicKeyHex.new, Hex64.new_text]
    rfl
  have hsig : (SignatureHex.new event.sig.text).toOption = some event.sig := by
    rw [SignatureHex.new_text]
    rfl
  refine Except.bind_eq_ok.mpr ⟨event.id, jsonField_ofFields hnodup 0 rfl hid, ?_⟩
  refine Except.bind_eq_ok.mpr ⟨event.pubkey, jsonField_ofFields hnodup 1 rfl hpubkey, ?_⟩
  refine Except.bind_eq_ok.mpr ⟨event.createdAt, jsonField_ofFields hnodup 2 rfl rfl, ?_⟩
  refine Except.bind_eq_ok.mpr ⟨event.kind, jsonField_ofFields hnodup 3 rfl hkind, ?_⟩
  refine Except.bind_eq_ok.mpr ⟨_, jsonField_ofFields hnodup 4 rfl rfl, ?_⟩
  refine Except.bind_eq_ok.mpr ⟨_, htagsRead, ?_⟩
  refine Except.bind_eq_ok.mpr ⟨content, jsonField_ofFields hnodup 5 rfl rfl, ?_⟩
  refine Except.bind_eq_ok.mpr ⟨event.sig, jsonField_ofFields hnodup 6 rfl hsig, ?_⟩
  rw [hcontentRead]
  rfl

/-- Reads the text of an event. -/
def ofText (text : Text) : Except Text SignedPocketEvent := do
  ofJson (← (compactJson.fromText text).mapError String.toList)

end SignedPocketEvent

/-- A host that prints without white space and reads what is printed of an event. -/
theorem PortableHost.readsEvents_of_compact {host : PortableHost} (hjson : host.json = compactJson)
    (hparse : host.parsePocketEventJson = SignedPocketEvent.ofText) : host.ReadsEvents where
  inverse := hjson ▸ compactJson_inverse
  oneLine value h := by
    rw [hjson]
    exact JsonText.newline_not_mem_printValue (JsonText.printable_of_canonical h)
  parses event value h := by
    have hread := compactJson_inverse.fromText_toText value (canonical_pocketEventJson h)
    rw [hjson, hparse]
    exact Except.bind_eq_ok.mpr
      ⟨value, Except.mapError_eq_ok.mpr hread, SignedPocketEvent.ofJson_pocketEventJson h⟩

/-! ## Manifests -/

/-- An optional offset, `null` where there is none. -/
def offsetToJson (offset : Option UInt64) : JsonValue :=
  offset.elim .null .unsigned

/-- An optional offset, read. -/
def offsetOfJson : JsonValue → Option (Option UInt64)
  | .null => some none
  | value => value.asU64.map some

/-- An optional offset is read back. -/
theorem offsetOfJson_offsetToJson (offset : Option UInt64) :
    offsetOfJson (offsetToJson offset) = some offset := by
  cases offset <;> rfl

/-- An optional offset prints. -/
theorem printable_offsetToJson (offset : Option UInt64) :
    JsonText.Printable (offsetToJson offset) := by
  cases offset with
  | none => exact .null
  | some offset => exact .posInt offset

namespace PortableRelayBackupEvents

/-- What the manifest says of the events' file. -/
def toJson (events : PortableRelayBackupEvents) : JsonValue :=
  structValue [
    ("path", .string events.path),
    ("count", .unsigned events.count),
    ("sha256", .string events.sha256),
    ("size_bytes", .unsigned events.sizeBytes),
    ("first_store_offset", offsetToJson events.firstStoreOffset),
    ("last_store_offset", offsetToJson events.lastStoreOffset)]

/-- What the manifest says of the events' file, read field by field. -/
def ofJson (value : JsonValue) : Except Text PortableRelayBackupEvents := do
  return {
    path := ← jsonField value "path" JsonValue.asStr
    count := ← jsonField value "count" JsonValue.asU64
    sha256 := ← jsonField value "sha256" JsonValue.asStr
    sizeBytes := ← jsonField value "size_bytes" JsonValue.asU64
    firstStoreOffset := ← jsonField value "first_store_offset" offsetOfJson
    lastStoreOffset := ← jsonField value "last_store_offset" offsetOfJson }

/-- What the manifest says of the events' file is read back. -/
theorem ofJson_toJson (events : PortableRelayBackupEvents) : ofJson events.toJson = .ok events := by
  have hnodup : (["path", "count", "sha256", "size_bytes", "first_store_offset",
      "last_store_offset"]).Nodup := by
    decide
  unfold ofJson toJson
  refine Except.bind_eq_ok.mpr ⟨_, jsonField_structValue hnodup 0 rfl rfl, ?_⟩
  refine Except.bind_eq_ok.mpr ⟨_, jsonField_structValue hnodup 1 rfl rfl, ?_⟩
  refine Except.bind_eq_ok.mpr ⟨_, jsonField_structValue hnodup 2 rfl rfl, ?_⟩
  refine Except.bind_eq_ok.mpr ⟨_, jsonField_structValue hnodup 3 rfl rfl, ?_⟩
  refine Except.bind_eq_ok.mpr
    ⟨_, jsonField_structValue hnodup 4 rfl (offsetOfJson_offsetToJson _), ?_⟩
  refine Except.bind_eq_ok.mpr
    ⟨_, jsonField_structValue hnodup 5 rfl (offsetOfJson_offsetToJson _), ?_⟩
  rfl

/-- What the manifest says of the events' file prints. -/
theorem printable_toJson (events : PortableRelayBackupEvents) :
    JsonText.Printable events.toJson := by
  refine printable_structValue fun field hfield => ?_
  simp only [List.mem_cons, List.not_mem_nil, or_false] at hfield
  rcases hfield with rfl | rfl | rfl | rfl | rfl | rfl
  · exact .string _
  · exact .posInt _
  · exact .string _
  · exact .posInt _
  · exact printable_offsetToJson _
  · exact printable_offsetToJson _

end PortableRelayBackupEvents

namespace PortableRelayBackupManifest

/-- The manifest of a portable backup, its fields in the order of the structure. -/
def toJson (manifest : PortableRelayBackupManifest) : JsonValue :=
  structValue [
    ("schema", .string manifest.schema),
    ("tangle_version", .string manifest.tangleVersion),
    ("pocket_source_revision", .string manifest.pocketSourceRevision),
    ("relay_url", .string manifest.relayUrl),
    ("created_at_unix_seconds", .unsigned manifest.createdAtUnixSeconds),
    ("events", manifest.events.toJson)]

/-- The manifest of a portable backup, read field by field. -/
def ofJson (value : JsonValue) : Except Text PortableRelayBackupManifest := do
  return {
    schema := ← jsonField value "schema" JsonValue.asStr
    tangleVersion := ← jsonField value "tangle_version" JsonValue.asStr
    pocketSourceRevision := ← jsonField value "pocket_source_revision" JsonValue.asStr
    relayUrl := ← jsonField value "relay_url" JsonValue.asStr
    createdAtUnixSeconds := ← jsonField value "created_at_unix_seconds" JsonValue.asU64
    events := ← jsonField value "events" fun events =>
      (PortableRelayBackupEvents.ofJson events).toOption }

/-- **The manifest of a portable backup is read back**, the offsets of an empty backup included. -/
theorem ofJson_toJson (manifest : PortableRelayBackupManifest) :
    ofJson manifest.toJson = .ok manifest := by
  have hnodup : (["schema", "tangle_version", "pocket_source_revision", "relay_url",
      "created_at_unix_seconds", "events"]).Nodup := by
    decide
  have hevents : (PortableRelayBackupEvents.ofJson manifest.events.toJson).toOption =
      some manifest.events := by
    rw [PortableRelayBackupEvents.ofJson_toJson]
    rfl
  unfold ofJson toJson
  refine Except.bind_eq_ok.mpr ⟨_, jsonField_structValue hnodup 0 rfl rfl, ?_⟩
  refine Except.bind_eq_ok.mpr ⟨_, jsonField_structValue hnodup 1 rfl rfl, ?_⟩
  refine Except.bind_eq_ok.mpr ⟨_, jsonField_structValue hnodup 2 rfl rfl, ?_⟩
  refine Except.bind_eq_ok.mpr ⟨_, jsonField_structValue hnodup 3 rfl rfl, ?_⟩
  refine Except.bind_eq_ok.mpr ⟨_, jsonField_structValue hnodup 4 rfl rfl, ?_⟩
  refine Except.bind_eq_ok.mpr ⟨_, jsonField_structValue hnodup 5 rfl hevents, ?_⟩
  rfl

/-- The manifest of a portable backup prints. -/
theorem printable_toJson (manifest : PortableRelayBackupManifest) :
    JsonText.Printable manifest.toJson := by
  refine printable_structValue fun field hfield => ?_
  simp only [List.mem_cons, List.not_mem_nil, or_false] at hfield
  rcases hfield with rfl | rfl | rfl | rfl | rfl | rfl
  · exact .string _
  · exact .string _
  · exact .string _
  · exact .string _
  · exact .posInt _
  · exact PortableRelayBackupEvents.printable_toJson _

/-- How a manifest is written, over lines and with its fields as they are declared, and read. -/
def form : SerdeForm PortableRelayBackupManifest :=
  .pretty toJson ofJson

/-- **A manifest is read back from the text that is written of it.** -/
theorem form_readsBack : form.ReadsBack :=
  SerdeForm.readsBack_pretty printable_toJson ofJson_toJson

end PortableRelayBackupManifest

end Tangle
