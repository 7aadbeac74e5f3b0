import Tangle.Host.Backup
import Tangle.Protocol.JsonText

/-!
# The documents of a bundle

A reader of the two documents that a backup of a tenant writes, the manifest and the list of
checksums. Both are printed over lines with the fields of their structs in the order of declaration,
and `SerdeForm.readsBack_pretty` says when what is printed so is read back: the value prints as JSON
that the reader takes, and the struct is read from the value field by field
(`jsonField_structValue`). The manifest of a portable backup is written the same way.
-/

namespace Tangle

/-! ## Structs -/

/-- A field of an object, read as a value. -/
def jsonField {α : Type} (value : JsonValue) (name : String) (read : JsonValue → Option α) :
    Except Text α :=
  Except.okOr (do read (← (← value.asObject).lookup name.toList)) name.toList

/-- A field is read from an object as the value at its place, when no other field has its name: the
names are told apart once for the whole object. -/
theorem jsonField_ofFields {α : Type} {fields : List (String × JsonValue)} {name : String}
    {value : JsonValue} {read : JsonValue → Option α} {a : α}
    (hnodup : (fields.map Prod.fst).Nodup) (index : Nat) (h : fields[index]? = some (name, value))
    (hread : read value = some a) :
    jsonField (JsonMap.ofFields fields).toValue name read = .ok a := by
  rw [jsonField, JsonMap.toValue, Except.okOr_eq_ok]
  show (JsonMap.ofFields fields).toList.lookup name.toList >>= read = some a
  rw [BTreeMap.lookup_toList, JsonMap.getElem?_ofFields hnodup (List.mem_of_getElem? h)]
  exact hread

/-- A struct with a field for each name, in the order in which they are declared. -/
def structValue (fields : List (String × JsonValue)) : JsonValue :=
  .object (fields.map fun field => (field.1.toList, field.2))

/-- The same for an object as a structure is written. -/
theorem jsonField_structValue {α : Type} {fields : List (String × JsonValue)} {name : String}
    {value : JsonValue} {read : JsonValue → Option α} {a : α}
    (hnodup : (fields.map Prod.fst).Nodup) (index : Nat) (h : fields[index]? = some (name, value))
    (hread : read value = some a) : jsonField (structValue fields) name read = .ok a := by
  have hlookup : (fields.map fun field => (field.1.toList, field.2)).lookup name.toList =
      some value := by
    have hmem := List.mem_of_getElem? h
    clear h
    induction fields with
    | nil => exact absurd hmem List.not_mem_nil
    | cons field fields ih =>
      rw [List.map_cons, List.nodup_cons] at hnodup
      rw [List.map_cons, List.lookup_cons]
      rcases List.mem_cons.mp hmem with rfl | hmem
      · rw [beq_self_eq_true]
      · have hne : name.toList ≠ field.1.toList := fun heq =>
          hnodup.1 (String.toList_inj.mp heq ▸ List.mem_map_of_mem (f := Prod.fst) hmem)
        rw [beq_false_of_ne hne]
        exact ih hnodup.2 hmem
  rw [jsonField, Except.okOr_eq_ok]
  show (fields.map fun field => (field.1.toList, field.2)).lookup name.toList >>= read = some a
  rw [hlookup]
  exact hread

/-- A structure prints when each of its fields does. -/
theorem printable_structValue {fields : List (String × JsonValue)}
    (h : ∀ field ∈ fields, JsonText.Printable field.2) :
    JsonText.Printable (structValue fields) := by
  refine .object fun field hfield => ?_
  obtain ⟨source, hsource, rfl⟩ := List.mem_map.mp hfield
  exact h source hsource

/-- How `to_vec_pretty` writes a value, and how the text is read. -/
def SerdeForm.pretty {α : Type} (toJson : α → JsonValue) (ofJson : JsonValue → Except Text α) :
    SerdeForm α where
  toText value := JsonText.prettyValue 0 (toJson value)
  fromText raw := do
    ofJson (← (compactJson.fromText (JsonText.withoutSpace false raw)).mapError String.toList)

/-- **A value that is printed over lines is read back when its JSON is.** Between the parts of the
text there is white space only, so without it the text is what is printed without white space, and
the reader takes that. -/
theorem SerdeForm.readsBack_pretty {α : Type} {toJson : α → JsonValue}
    {ofJson : JsonValue → Except Text α} (hprintable : ∀ value, JsonText.Printable (toJson value))
    (hreads : ∀ value, ofJson (toJson value) = .ok value) :
    (SerdeForm.pretty toJson ofJson).ReadsBack := by
  intro value
  have hread := compactJson_fromText (hprintable value)
  rw [← JsonText.withoutSpace_prettyValue (hprintable value)] at hread
  exact Except.bind_eq_ok.mpr ⟨_, Except.mapError_eq_ok.mpr hread, hreads value⟩

/-! ## The list of checksums -/

namespace ChecksumFile

/-- A listed file: its path, its length and its digest. -/
def toJson (file : ChecksumFile) : JsonValue :=
  structValue [
    ("path", .string file.path),
    ("sha256", .string file.sha256),
    ("size_bytes", .unsigned file.sizeBytes)]

/-- A listed file, read field by field. -/
def ofJson (value : JsonValue) : Except Text ChecksumFile := do
  return {
    path := ← jsonField value "path" JsonValue.asStr
    sha256 := ← jsonField value "sha256" JsonValue.asStr
    sizeBytes := ← jsonField value "size_bytes" JsonValue.asU64 }

/-- A listed file is read back. -/
theorem ofJson_toJson (file : ChecksumFile) : ofJson file.toJson = .ok file := by
  have hnodup : (["path", "sha256", "size_bytes"]).Nodup := by decide
  unfold ofJson toJson
  refine Except.bind_eq_ok.mpr ⟨_, jsonField_structValue hnodup 0 rfl rfl, ?_⟩
  refine Except.bind_eq_ok.mpr ⟨_, jsonField_structValue hnodup 1 rfl rfl, ?_⟩
  refine Except.bind_eq_ok.mpr ⟨_, jsonField_structValue hnodup 2 rfl rfl, ?_⟩
  rfl

/-- A listed file prints. -/
theorem printable_toJson (file : ChecksumFile) : JsonText.Printable file.toJson := by
  refine printable_structValue fun field hfield => ?_
  simp only [List.mem_cons, List.not_mem_nil, or_false] at hfield
  rcases hfield with rfl | rfl | rfl
  · exact .string _
  · exact .string _
  · exact .posInt _

end ChecksumFile

namespace ChecksumManifest

/-- The checksum manifest: its schema and the files it lists. -/
def toJson (manifest : ChecksumManifest) : JsonValue :=
  structValue [
    ("schema", .string manifest.schema),
    ("algorithm", .string manifest.algorithm),
    ("files", .array (manifest.files.map ChecksumFile.toJson))]

/-- The checksum manifest, read field by field. -/
def ofJson (value : JsonValue) : Except Text ChecksumManifest := do
  return {
    schema := ← jsonField value "schema" JsonValue.asStr
    algorithm := ← jsonField value "algorithm" JsonValue.asStr
    files := ← (← jsonField value "files" JsonValue.asArray).mapM ChecksumFile.ofJson }

/-- The checksum manifest is read back: each of its files is. -/
theorem ofJson_toJson (manifest : ChecksumManifest) : ofJson manifest.toJson = .ok manifest := by
  have hnodup : (["schema", "algorithm", "files"]).Nodup := by decide
  unfold ofJson toJson
  refine Except.bind_eq_ok.mpr ⟨_, jsonField_structValue hnodup 0 rfl rfl, ?_⟩
  refine Except.bind_eq_ok.mpr ⟨_, jsonField_structValue hnodup 1 rfl rfl, ?_⟩
  refine Except.bind_eq_ok.mpr ⟨_, jsonField_structValue hnodup 2 rfl rfl, ?_⟩
  have hfiles : (manifest.files.map ChecksumFile.toJson).mapM ChecksumFile.ofJson =
      .ok manifest.files := by
    rw [Except.mapM_eq_ok, List.forall₂_map_left_iff, List.forall₂_same]
    exact fun file _ => file.ofJson_toJson
  exact Except.bind_eq_ok.mpr ⟨_, hfiles, rfl⟩

/-- The checksum manifest prints. -/
theorem printable_toJson (manifest : ChecksumManifest) : JsonText.Printable manifest.toJson := by
  refine printable_structValue fun field hfield => ?_
  simp only [List.mem_cons, List.not_mem_nil, or_false] at hfield
  rcases hfield with rfl | rfl | rfl
  · exact .string _
  · exact .string _
  · refine .array fun item hitem => ?_
    obtain ⟨file, _, rfl⟩ := List.mem_map.mp hitem
    exact file.printable_toJson

/-- How a list of checksums is written and read. -/
def form : SerdeForm ChecksumManifest :=
  .pretty toJson ofJson

/-- **A list of checksums is read back from the text that is written of it.** -/
theorem form_readsBack : form.ReadsBack :=
  SerdeForm.readsBack_pretty printable_toJson ofJson_toJson

end ChecksumManifest

/-! ## The manifest -/

/-- An `Option<String>`: the text, or `null`. -/
def optionalTextToJson (text : Option Text) : JsonValue :=
  text.elim .null .string

/-- An optional text, `null` where there is none. -/
def optionalTextOfJson : JsonValue → Option (Option Text)
  | .null => some none
  | value => value.asStr.map some

/-- An optional text is read back. -/
theorem optionalTextOfJson_toJson (text : Option Text) :
    optionalTextOfJson (optionalTextToJson text) = some text := by
  cases text <;> rfl

/-- An optional text prints. -/
theorem printable_optionalTextToJson (text : Option Text) :
    JsonText.Printable (optionalTextToJson text) := by
  cases text with
  | none => exact .null
  | some text => exact .string text

/-- A JSON boolean. -/
def boolOfJson : JsonValue → Option Bool
  | .bool value => some value
  | _ => none

namespace TenantManifestSource

/-- What the manifest says of the tenant's configuration. -/
def toJson (source : TenantManifestSource) : JsonValue :=
  structValue [
    ("tenant_id", .string source.tenantId),
    ("tenant_schema", .string source.tenantSchema),
    ("host", .string source.host),
    ("relay_url", .string source.relayUrl),
    ("relay_self_pubkey", optionalTextToJson source.relaySelfPubkey)]

/-- What the manifest says of the tenant's configuration, read field by field. -/
def ofJson (value : JsonValue) : Except Text TenantManifestSource := do
  return {
    tenantId := ← jsonField value "tenant_id" JsonValue.asStr
    tenantSchema := ← jsonField value "tenant_schema" JsonValue.asStr
    host := ← jsonField value "host" JsonValue.asStr
    relayUrl := ← jsonField value "relay_url" JsonValue.asStr
    relaySelfPubkey := ← jsonField value "relay_self_pubkey" optionalTextOfJson }

/-- What the manifest says of the tenant's configuration is read back. -/
theorem ofJson_toJson (source : TenantManifestSource) : ofJson source.toJson = .ok source := by
  have hnodup :
      (["tenant_id", "tenant_schema", "host", "relay_url", "relay_self_pubkey"]).Nodup := by
    decide
  unfold ofJson toJson
  refine Except.bind_eq_ok.mpr ⟨_, jsonField_structValue hnodup 0 rfl rfl, ?_⟩
  refine Except.bind_eq_ok.mpr ⟨_, jsonField_structValue hnodup 1 rfl rfl, ?_⟩
  refine Except.bind_eq_ok.mpr ⟨_, jsonField_structValue hnodup 2 rfl rfl, ?_⟩
  refine Except.bind_eq_ok.mpr ⟨_, jsonField_structValue hnodup 3 rfl rfl, ?_⟩
  refine Except.bind_eq_ok.mpr
    ⟨_, jsonField_structValue hnodup 4 rfl (optionalTextOfJson_toJson _), ?_⟩
  rfl

/-- What the manifest says of the tenant's configuration prints. -/
theorem printable_toJson (source : TenantManifestSource) : JsonText.Printable source.toJson := by
  refine printable_structValue fun field hfield => ?_
  simp only [List.mem_cons, List.not_mem_nil, or_false] at hfield
  rcases hfield with rfl | rfl | rfl | rfl | rfl
  · exact .string _
  · exact .string _
  · exact .string _
  · exact .string _
  · exact printable_optionalTextToJson _

end TenantManifestSource

namespace TenantStoreManifest

/-- What the manifest says of the tenant's store. -/
def toJson (store : TenantStoreManifest) : JsonValue :=
  structValue [
    ("source_data_directory", .string store.sourceDataDirectory),
    ("snapshot_path", .string store.snapshotPath)]

/-- What the manifest says of the tenant's store, read field by field. -/
def ofJson (value : JsonValue) : Except Text TenantStoreManifest := do
  return {
    sourceDataDirectory := ← jsonField value "source_data_directory" JsonValue.asStr
    snapshotPath := ← jsonField value "snapshot_path" JsonValue.asStr }

/-- What the manifest says of the tenant's store is read back. -/
theorem ofJson_toJson (store : TenantStoreManifest) : ofJson store.toJson = .ok store := by
  have hnodup : (["source_data_directory", "snapshot_path"]).Nodup := by decide
  unfold ofJson toJson
  refine Except.bind_eq_ok.mpr ⟨_, jsonField_structValue hnodup 0 rfl rfl, ?_⟩
  refine Except.bind_eq_ok.mpr ⟨_, jsonField_structValue hnodup 1 rfl rfl, ?_⟩
  rfl

/-- What the manifest says of the tenant's store prints. -/
theorem printable_toJson (store : TenantStoreManifest) : JsonText.Printable store.toJson := by
  refine printable_structValue fun field hfield => ?_
  simp only [List.mem_cons, List.not_mem_nil, or_false] at hfield
  rcases hfield with rfl | rfl
  · exact .string _
  · exact .string _

end TenantStoreManifest

namespace TenantBackupManifest

/-- The manifest of a tenant's backup, its fields in the order of the structure. -/
def toJson (manifest : TenantBackupManifest) : JsonValue :=
  structValue [
    ("schema", .string manifest.schema),
    ("tangle_version", .string manifest.tangleVersion),
    ("tangle_spec_version", .string manifest.tangleSpecVersion),
    ("created_at", .unsigned manifest.createdAt),
    ("source", manifest.source.toJson),
    ("store", manifest.store.toJson),
    ("redacted_tenant_config_path", .string manifest.redactedTenantConfigPath),
    ("checksum_manifest_path", .string manifest.checksumManifestPath),
    ("checksum_manifest_sha256", .string manifest.checksumManifestSha256),
    ("checksum_file_count", .unsigned manifest.checksumFileCount),
    ("includes_secrets", .bool manifest.includesSecrets)]

/-- The manifest of a tenant's backup, read field by field. -/
def ofJson (value : JsonValue) : Except Text TenantBackupManifest := do
  return {
    schema := ← jsonField value "schema" JsonValue.asStr
    tangleVersion := ← jsonField value "tangle_version" JsonValue.asStr
    tangleSpecVersion := ← jsonField value "tangle_spec_version" JsonValue.asStr
    createdAt := ← jsonField value "created_at" JsonValue.asU64
    source := ← jsonField value "source" fun source =>
      (TenantManifestSource.ofJson source).toOption
    store := ← jsonField value "store" fun store => (TenantStoreManifest.ofJson store).toOption
    redactedTenantConfigPath := ← jsonField value "redacted_tenant_config_path" JsonValue.asStr
    checksumManifestPath := ← jsonField value "checksum_manifest_path" JsonValue.asStr
    checksumManifestSha256 := ← jsonField value "checksum_manifest_sha256" JsonValue.asStr
    checksumFileCount := ← jsonField value "checksum_file_count" JsonValue.asU64
    includesSecrets := ← jsonField value "includes_secrets" boolOfJson }

/-- **The manifest of a tenant's backup is read back**, field by field, the optional texts and the
tables within it included. -/
theorem ofJson_toJson (manifest : TenantBackupManifest) :
    ofJson manifest.toJson = .ok manifest := by
  have hnodup : (["schema", "tangle_version", "tangle_spec_version", "created_at", "source",
      "store", "redacted_tenant_config_path", "checksum_manifest_path",
      "checksum_manifest_sha256", "checksum_file_count", "includes_secrets"]).Nodup := by
    decide
  have hsource : (TenantManifestSource.ofJson manifest.source.toJson).toOption =
      some manifest.source := by
    rw [TenantManifestSource.ofJson_toJson]
    rfl
  have hstore : (TenantStoreManifest.ofJson manifest.store.toJson).toOption =
      some manifest.store := by
    rw [TenantStoreManifest.ofJson_toJson]
    rfl
  unfold ofJson toJson
  refine Except.bind_eq_ok.mpr ⟨_, jsonField_structValue hnodup 0 rfl rfl, ?_⟩
  refine Except.bind_eq_ok.mpr ⟨_, jsonField_structValue hnodup 1 rfl rfl, ?_⟩
  refine Except.bind_eq_ok.mpr ⟨_, jsonField_structValue hnodup 2 rfl rfl, ?_⟩
  refine Except.bind_eq_ok.mpr ⟨_, jsonField_structValue hnodup 3 rfl rfl, ?_⟩
  refine Except.bind_eq_ok.mpr ⟨_, jsonField_structValue hnodup 4 rfl hsource, ?_⟩
  refine Except.bind_eq_ok.mpr ⟨_, jsonField_structValue hnodup 5 rfl hstore, ?_⟩
  refine Except.bind_eq_ok.mpr ⟨_, jsonField_structValue hnodup 6 rfl rfl, ?_⟩
  refine Except.bind_eq_ok.mpr ⟨_, jsonField_structValue hnodup 7 rfl rfl, ?_⟩
  refine Except.bind_eq_ok.mpr ⟨_, jsonField_structValue hnodup 8 rfl rfl, ?_⟩
  refine Except.bind_eq_ok.mpr ⟨_, jsonField_structValue hnodup 9 rfl rfl, ?_⟩
  refine Except.bind_eq_ok.mpr ⟨_, jsonField_structValue hnodup 10 rfl rfl, ?_⟩
  rfl

/-- The manifest of a tenant's backup prints. -/
theorem printable_toJson (manifest : TenantBackupManifest) :
    JsonText.Printable manifest.toJson := by
  refine printable_structValue fun field hfield => ?_
  simp only [List.mem_cons, List.not_mem_nil, or_false] at hfield
  rcases hfield with rfl | rfl | rfl | rfl | rfl | rfl | rfl | rfl | rfl | rfl | rfl
  · exact .string _
  · exact .string _
  · exact .string _
  · exact .posInt _
  · exact manifest.source.printable_toJson
  · exact manifest.store.printable_toJson
  · exact .string _
  · exact .string _
  · exact .string _
  · exact .posInt _
  · exact .bool _

/-- How a manifest is written and read. -/
def form : SerdeForm TenantBackupManifest :=
  .pretty toJson ofJson

/-- **A manifest is read back from the text that is written of it.** -/
theorem form_readsBack : form.ReadsBack :=
  SerdeForm.readsBack_pretty printable_toJson ofJson_toJson

end TenantBackupManifest

end Tangle
