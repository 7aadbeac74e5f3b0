import Mathlib.Data.List.Sort
import Tangle.Lib.Except
import Tangle.Lib.Ordered
import Tangle.Protocol.Text

/-!
# JSON values

A JSON value as the program keeps it once it is read: a number is a 64-bit integer or a float, and
an object holds its fields in the order of their names, each name once (`JsonValue.Canonical`). What
a document spells may repeat a name; `JsonValue.unique` is the reader's pass over the document that
refuses those, and a canonical value passes it unchanged.
-/

namespace Tangle

/-- A number of a document: unsigned where it can be, a signed one below zero, else a float, held
by its bits. -/
inductive JsonNumber where
  | posInt (value : UInt64)
  | negInt (value : Int64) (negative : value < 0)
  | float (bits : UInt64)
deriving DecidableEq

/-- A JSON value. An object's fields stand in the order in which they are visited. -/
inductive JsonValue where
  | null
  | bool (value : Bool)
  | number (value : JsonNumber)
  | string (value : Text)
  | array (items : List JsonValue)
  | object (fields : List (Text × JsonValue))

/-- The order of the names of an object's fields. -/
def FieldBefore (a b : Text) : Prop :=
  compare a b = .lt

/-- A field before another has another name. -/
theorem FieldBefore.ne {a b : Text} (h : FieldBefore a b) : a ≠ b := by
  intro heq
  rw [FieldBefore, heq, Std.compare_self] at h
  cases h

/-- No two fields are each before the other. -/
theorem FieldBefore.asymm {a b : Text} (h : FieldBefore a b) : ¬ FieldBefore b a := by
  intro hba
  have hgt : compare b a = .gt := Std.OrientedCmp.gt_of_lt h
  rw [FieldBefore, hgt] at hba
  cases hba

/-- The fields of an object while it is built. -/
abbrev JsonMap : Type := BTreeMap Text JsonValue

/-- The object of these fields. -/
def JsonMap.toValue (fields : JsonMap) : JsonValue :=
  .object fields.toList

namespace JsonValue

/-- `Value::as_str`. -/
def asStr : JsonValue → Option Text
  | .string value => some value
  | _ => none

/-- `Value::as_u64`: a number that is no unsigned one is none. -/
def asU64 : JsonValue → Option UInt64
  | .number (.posInt value) => some value
  | _ => none

/-- `Value::as_array`. -/
def asArray : JsonValue → Option (List JsonValue)
  | .array items => some items
  | _ => none

/-- `Value::as_object`. -/
def asObject : JsonValue → Option (List (Text × JsonValue))
  | .object fields => some fields
  | _ => none

/-- An array of texts. -/
def texts (items : List Text) : JsonValue :=
  .array (items.map .string)

/-- An unsigned number. -/
def unsigned (value : UInt64) : JsonValue :=
  .number (.posInt value)

/-- An unsigned number is read as it. -/
@[simp] theorem asU64_unsigned (value : UInt64) : (unsigned value).asU64 = some value := rfl

/-- A value is read as a text exactly when it is that string. -/
theorem asStr_eq_some {value : JsonValue} {text : Text} :
    value.asStr = some text ↔ value = .string text := by
  cases value <;> simp [asStr]

/-- A value is read as a number exactly when it is that unsigned one. -/
theorem asU64_eq_some {value : JsonValue} {n : UInt64} :
    value.asU64 = some n ↔ value = unsigned n := by
  cases value with
  | number number => cases number <;> simp [asU64, unsigned]
  | _ => simp [asU64, unsigned]

/-- A value is read as a list exactly when it is that array. -/
theorem asArray_eq_some {value : JsonValue} {items : List JsonValue} :
    value.asArray = some items ↔ value = .array items := by
  cases value <;> simp [asArray]

/-- A value without floats whose objects are those of maps. -/
inductive Canonical : JsonValue → Prop
  | null : Canonical .null
  | bool (value : Bool) : Canonical (.bool value)
  | posInt (value : UInt64) : Canonical (.number (.posInt value))
  | negInt (value : Int64) (negative : value < 0) : Canonical (.number (.negInt value negative))
  | string (value : Text) : Canonical (.string value)
  | array {items : List JsonValue} (each : ∀ item ∈ items, Canonical item) :
      Canonical (.array items)
  | object {fields : List (Text × JsonValue)}
      (ordered : fields.Pairwise fun a b => FieldBefore a.1 b.1)
      (each : ∀ field ∈ fields, Canonical field.2) : Canonical (.object fields)

/-- A list of texts has no object in it to be out of order. -/
theorem canonical_texts (items : List Text) : (texts items).Canonical := by
  refine .array fun item hitem => ?_
  obtain ⟨text, _, rfl⟩ := List.mem_map.mp hitem
  exact .string text

end JsonValue

/-! ## Objects of maps -/

namespace JsonMap

/-- The fields of a map stand in the order of their names. -/
theorem ordered_toList (fields : JsonMap) : fields.toList.Pairwise fun a b => FieldBefore a.1 b.1 :=
  Std.ExtTreeMap.ordered_keys_toList

/-- A list of fields in the order of their names is the list of the map that answers with them. -/
theorem toList_eq {map : JsonMap} {fields : List (Text × JsonValue)}
    (hordered : fields.Pairwise fun a b => FieldBefore a.1 b.1)
    (h : ∀ (name : Text) (value : JsonValue), map[name]? = some value ↔ (name, value) ∈ fields) :
    map.toList = fields := by
  have hnodup : ∀ {l : List (Text × JsonValue)},
      l.Pairwise (fun a b => FieldBefore a.1 b.1) → l.Nodup :=
    fun hl => hl.imp fun hlt heq => hlt.ne (congrArg Prod.fst heq)
  have hperm : map.toList.Perm fields :=
    (List.perm_ext_iff_of_nodup (hnodup (ordered_toList map)) (hnodup hordered)).mpr
      fun field => BTreeMap.mem_toList.trans (h field.1 field.2)
  exact hperm.eq_of_pairwise (fun a b _ _ hab hba => absurd hba hab.asymm)
    (ordered_toList map) hordered

/-- The object of a map of canonical values is canonical. -/
theorem canonical_toValue {fields : JsonMap}
    (h : ∀ (name : Text) (value : JsonValue), fields[name]? = some value → value.Canonical) :
    fields.toValue.Canonical :=
  .object (ordered_toList fields) fun field hfield =>
    h field.1 field.2 (BTreeMap.mem_toList.mp hfield)

/-- The map of fields that are inserted one after the other. -/
def ofFields (fields : List (String × JsonValue)) : JsonMap :=
  fields.foldl (fun object field => object.insert field.1.toList field.2) ∅

/-- Fields of other names leave an answer as it is. -/
theorem getElem?_foldl_insert {fields : List (String × JsonValue)} {field : String}
    (object : JsonMap) (h : field ∉ fields.map Prod.fst) :
    (fields.foldl (fun object field => object.insert field.1.toList field.2)
      object)[field.toList]? = object[field.toList]? := by
  induction fields generalizing object with
  | nil => rfl
  | cons next rest ih =>
    rw [List.map_cons, List.mem_cons, not_or] at h
    have hne : next.1.toList ≠ field.toList := fun heq => h.1 (String.toList_inj.mp heq).symm
    rw [List.foldl_cons, ih _ h.2, BTreeMap.getElem?_insert_ne hne]

/-- A map answers each of the fields it was built from when their names differ. -/
theorem getElem?_ofFields {fields : List (String × JsonValue)} {field : String}
    {value : JsonValue} (hnodup : (fields.map Prod.fst).Nodup) (h : (field, value) ∈ fields) :
    (ofFields fields)[field.toList]? = some value := by
  suffices hfold : ∀ object : JsonMap,
      (fields.foldl (fun object field => object.insert field.1.toList field.2)
        object)[field.toList]? = some value from hfold ∅
  induction fields with
  | nil => exact (nomatch h)
  | cons first rest ih =>
    obtain ⟨hfirst, hrest⟩ := List.nodup_cons.mp hnodup
    intro object
    rcases List.mem_cons.mp h with rfl | hin
    · rw [List.foldl_cons, getElem?_foldl_insert _ hfirst, BTreeMap.getElem?_insert_self]
    · exact ih hrest hin _

/-- The object of canonical fields is canonical. -/
theorem canonical_ofFields {fields : List (String × JsonValue)}
    (h : ∀ field ∈ fields, field.2.Canonical) : (ofFields fields).toValue.Canonical := by
  suffices hfold : ∀ (fields : List (String × JsonValue)) (object : JsonMap),
      (∀ field ∈ fields, field.2.Canonical) →
      (∀ (name : Text) (value : JsonValue), object[name]? = some value → value.Canonical) →
      ∀ (name : Text) (value : JsonValue),
        (fields.foldl (fun object field => object.insert field.1.toList field.2)
          object)[name]? = some value → value.Canonical from
    canonical_toValue (hfold fields ∅ h (by simp))
  intro fields
  induction fields with
  | nil => exact fun _ _ hobject => hobject
  | cons first rest ih =>
    intro object hfields hobject
    refine ih _ (fun field hfield => hfields field (List.mem_cons_of_mem _ hfield)) ?_
    intro name value hname
    rw [BTreeMap.getElem?_insert] at hname
    split at hname
    · cases hname
      exact hfields first (List.mem_cons_self ..)
    · exact hobject name value hname

end JsonMap

/-! ## Documents -/

namespace JsonValue

mutual

/-- Reads a document's value, refusing an object that names a field twice. -/
def unique : JsonValue → Except String JsonValue
  | .array items => do .ok (.array (← uniqueItems items))
  | .object fields => do .ok (← uniqueFields ∅ fields).toValue
  | .null => .ok .null
  | .bool value => .ok (.bool value)
  | .number value => .ok (.number value)
  | .string value => .ok (.string value)

/-- The items of an array, each read. -/
def uniqueItems : List JsonValue → Except String (List JsonValue)
  | [] => .ok []
  | item :: rest => do
    let item ← item.unique
    .ok (item :: (← uniqueItems rest))

/-- The fields of an object, read into a map that must not have them yet. -/
def uniqueFields (values : JsonMap) : List (Text × JsonValue) → Except String JsonMap
  | [] => .ok values
  | (field, value) :: rest =>
    if values.contains field then
      .error s!"duplicate object field `{field.toMessage}`"
    else do
      let value ← value.unique
      uniqueFields (values.insert field value) rest

end

/-- Items that read as themselves are a list that does. -/
theorem uniqueItems_eq {items : List JsonValue} (h : ∀ item ∈ items, item.unique = .ok item) :
    uniqueItems items = .ok items := by
  induction items with
  | nil => rw [uniqueItems]
  | cons item rest ih =>
    rw [uniqueItems, h item (List.mem_cons_self ..), Except.ok_bind,
      ih fun item hitem => h item (List.mem_cons_of_mem _ hitem)]
    rfl

/-- Fields of different names that read as themselves are read into the map of them. -/
theorem uniqueFields_eq {fields : List (Text × JsonValue)} (values : JsonMap)
    (hfields : ∀ field ∈ fields, field.2.unique = .ok field.2)
    (hnodup : (fields.map Prod.fst).Nodup) (hnew : ∀ field ∈ fields, values[field.1]? = none) :
    ∃ read, uniqueFields values fields = .ok read ∧
      ∀ (name : Text) (value : JsonValue), read[name]? = some value ↔
        values[name]? = some value ∨ (name, value) ∈ fields := by
  induction fields generalizing values with
  | nil => exact ⟨values, by rw [uniqueFields], by simp⟩
  | cons field rest ih =>
    obtain ⟨name, value⟩ := field
    obtain ⟨hfirst, hrest⟩ := List.nodup_cons.mp hnodup
    have hvalue : value.unique = .ok value := hfields (name, value) (List.mem_cons_self ..)
    have habsent : values[name]? = none := hnew (name, value) (List.mem_cons_self ..)
    have hcontains : values.contains name = false := by
      rw [Std.ExtTreeMap.contains_eq_isSome_getElem?, habsent]
      rfl
    have hnewer : ∀ field ∈ rest, (values.insert name value)[field.1]? = none := by
      intro field hfield
      have hne : name ≠ field.1 := fun heq => hfirst (List.mem_map.mpr ⟨field, hfield, heq.symm⟩)
      rw [BTreeMap.getElem?_insert_ne hne]
      exact hnew field (List.mem_cons_of_mem _ hfield)
    obtain ⟨read, hread, hanswers⟩ := ih (values.insert name value)
      (fun field hfield => hfields field (List.mem_cons_of_mem _ hfield)) hrest hnewer
    refine ⟨read, ?_, fun name' value' => ?_⟩
    · rw [uniqueFields, hcontains, if_neg Bool.false_ne_true, hvalue, Except.ok_bind, hread]
    · rw [hanswers, BTreeMap.getElem?_insert]
      by_cases hname : name = name'
      · subst hname
        simp [habsent, eq_comm]
      · have hne : name' ≠ name := fun heq => hname heq.symm
        simp [hname, hne]

/-- A canonical value reads as itself. -/
theorem Canonical.unique_eq {value : JsonValue} (h : value.Canonical) :
    value.unique = .ok value := by
  induction h with
  | null => rw [unique]
  | bool value => rw [unique]
  | posInt value => rw [unique]
  | negInt value negative => rw [unique]
  | string value => rw [unique]
  | array _ ih => rw [unique, uniqueItems_eq ih, Except.ok_bind]
  | @object fields ordered _ ih =>
    have hnodup : (fields.map Prod.fst).Nodup :=
      List.pairwise_map.mpr (ordered.imp FieldBefore.ne)
    obtain ⟨read, hread, hanswers⟩ :=
      uniqueFields_eq ∅ ih hnodup fun _ _ => BTreeMap.getElem?_empty
    have hlist : read.toList = fields :=
      JsonMap.toList_eq ordered fun name value => by simp [hanswers]
    rw [unique, hread, Except.ok_bind, JsonMap.toValue, hlist]

/-! ### Values that are kept -/

mutual

/-- A value as it is kept: of two fields of one name the last one stays. -/
def lastWins : JsonValue → JsonValue
  | .array items => .array (lastWinsItems items)
  | .object fields => (lastWinsFields ∅ fields).toValue
  | .null => .null
  | .bool value => .bool value
  | .number value => .number value
  | .string value => .string value

/-- The items of an array, each as it is kept. -/
def lastWinsItems : List JsonValue → List JsonValue
  | [] => []
  | item :: rest => item.lastWins :: lastWinsItems rest

/-- The fields of an object, each taking the place of an earlier one of its name. -/
def lastWinsFields (values : JsonMap) : List (Text × JsonValue) → JsonMap
  | [] => values
  | (field, value) :: rest => lastWinsFields (values.insert field value.lastWins) rest

end

/-- A value is an unsigned number exactly when what is kept of it is. -/
theorem asU64_lastWins (value : JsonValue) : value.lastWins.asU64 = value.asU64 := by
  cases value with
  | array items => simp [lastWins, asU64]
  | object fields => simp [lastWins, asU64, JsonMap.toValue]
  | _ => simp [lastWins, asU64]

/-- Items that are kept as they are make a list that is. -/
theorem lastWinsItems_eq {items : List JsonValue} (h : ∀ item ∈ items, item.lastWins = item) :
    lastWinsItems items = items := by
  induction items with
  | nil => rw [lastWinsItems]
  | cons item rest ih =>
    rw [lastWinsItems, h item (List.mem_cons_self ..),
      ih fun item hitem => h item (List.mem_cons_of_mem _ hitem)]

/-- Fields of different names that are kept as they are make the map of them. -/
theorem lastWinsFields_eq {fields : List (Text × JsonValue)} (values : JsonMap)
    (hfields : ∀ field ∈ fields, field.2.lastWins = field.2)
    (hnodup : (fields.map Prod.fst).Nodup) (hnew : ∀ field ∈ fields, values[field.1]? = none)
    (name : Text) (value : JsonValue) : (lastWinsFields values fields)[name]? = some value ↔
      values[name]? = some value ∨ (name, value) ∈ fields := by
  induction fields generalizing values with
  | nil => simp [lastWinsFields]
  | cons field rest ih =>
    obtain ⟨first, kept⟩ := field
    obtain ⟨hfirst, hrest⟩ := List.nodup_cons.mp hnodup
    have hkept : kept.lastWins = kept := hfields (first, kept) (List.mem_cons_self ..)
    have habsent : values[first]? = none := hnew (first, kept) (List.mem_cons_self ..)
    have hnewer : ∀ field ∈ rest, (values.insert first kept)[field.1]? = none := by
      intro field hfield
      have hne : first ≠ field.1 := fun heq => hfirst (List.mem_map.mpr ⟨field, hfield, heq.symm⟩)
      rw [BTreeMap.getElem?_insert_ne hne]
      exact hnew field (List.mem_cons_of_mem _ hfield)
    rw [lastWinsFields, hkept, ih _ (fun field hfield => hfields field
      (List.mem_cons_of_mem _ hfield)) hrest hnewer, BTreeMap.getElem?_insert]
    by_cases hname : first = name
    · subst hname
      simp [habsent, eq_comm]
    · have hne : name ≠ first := fun heq => hname heq.symm
      simp [hname, hne]

/-- A canonical value is kept as it is. -/
theorem Canonical.lastWins_eq {value : JsonValue} (h : value.Canonical) :
    value.lastWins = value := by
  induction h with
  | null => rw [lastWins]
  | bool value => rw [lastWins]
  | posInt value => rw [lastWins]
  | negInt value negative => rw [lastWins]
  | string value => rw [lastWins]
  | array _ ih => rw [lastWins, lastWinsItems_eq ih]
  | @object fields ordered _ ih =>
    have hnodup : (fields.map Prod.fst).Nodup :=
      List.pairwise_map.mpr (ordered.imp FieldBefore.ne)
    have hlist : (lastWinsFields ∅ fields).toList = fields :=
      JsonMap.toList_eq ordered fun name value => by
        simp [lastWinsFields_eq ∅ ih hnodup fun _ _ => BTreeMap.getElem?_empty]
    rw [lastWins, JsonMap.toValue, hlist]

end JsonValue

/-- The library that prints values and reads documents. A document is read to its tree, the names
of its objects as they are written. -/
structure SerdeJson where
  toText : JsonValue → Text
  fromText : Text → Except String JsonValue

namespace SerdeJson

variable {json : SerdeJson}

/-- What is printed of a value without floats is read as that value, and an empty text is no
document. -/
structure Inverse (json : SerdeJson) : Prop where
  fromText_toText : ∀ value : JsonValue, value.Canonical →
    json.fromText (json.toText value) = .ok value
  fromText_nil : ¬ (json.fromText []).Succeeds

/-- Reads a document's value, refusing a field named twice. -/
def valueWithoutDuplicateFields (json : SerdeJson) (raw : Text) : Except String JsonValue := do
  (← json.fromText raw).unique

/-- What is printed of a canonical value is read as that value. -/
theorem Inverse.read (h : json.Inverse) {value : JsonValue} (hvalue : value.Canonical) :
    json.valueWithoutDuplicateFields (json.toText value) = .ok value := by
  rw [valueWithoutDuplicateFields, h.fromText_toText value hvalue, Except.ok_bind]
  exact hvalue.unique_eq

/-- A canonical value is printed as some text. -/
theorem Inverse.toText_ne_nil (h : json.Inverse) {value : JsonValue} (hvalue : value.Canonical) :
    json.toText value ≠ [] :=
  fun hnil => h.fromText_nil ⟨value, hnil ▸ h.fromText_toText value hvalue⟩

end SerdeJson

end Tangle
