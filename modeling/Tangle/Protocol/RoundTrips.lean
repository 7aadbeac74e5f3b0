import Mathlib.Logic.Function.Basic
import Tangle.Protocol.Filters
import Tangle.Protocol.JsonText

/-!
# Filters that come back from their JSON form

What a filter is written with is a value for some of the fields (`Filter.written`), and this
determines the filter. Writing puts each of these values under its field's name, and reading a field
makes it the value the filter is written with; so the filter that is read is written as the one it
was read from, and is that filter. Reading stops only at a value the reader does not take.
-/

namespace Tangle

/-- The fields of a filter. -/
inductive FilterField where
  | ids | authors | kinds | since | «until» | limit | search
  | tag (name : TagName)
deriving DecidableEq

/-- The name a field is written under. -/
def FilterField.key : FilterField → Text
  | .ids => "ids".toList
  | .authors => "authors".toList
  | .kinds => "kinds".toList
  | .since => "since".toList
  | .until => "until".toList
  | .limit => "limit".toList
  | .search => "search".toList
  | .tag name => name.field

/-- No two fields of a filter have one key. -/
theorem FilterField.key_injective : Function.Injective FilterField.key := by
  have hfixed : ∀ {a b : String}, a ≠ b → a.toList ≠ b.toList :=
    fun hne heq => hne (String.toList_inj.mp heq)
  have hhash : ∀ (name : TagName) {fixed : String}, fixed.toList.head? ≠ some '#' →
      name.field ≠ fixed.toList := fun name fixed hhead heq => hhead (heq ▸ rfl)
  intro a b h
  cases a with
  | tag name =>
    cases b with
    | tag name' => exact congrArg FilterField.tag (TagName.text_injective (List.cons.inj h).2)
    | _ => exact absurd h (hhash name (by decide))
  | _ =>
    cases b with
    | tag name => exact absurd h.symm (hhash name (by decide))
    | _ => first | rfl | exact absurd h (hfixed (by decide))

/-- The array of a list, unless it is empty. -/
def JsonValue.ofList (items : List JsonValue) : Option JsonValue :=
  if items.isEmpty then none else some (.array items)

namespace Filter

/-- The value a filter is written with under a field. -/
def written (filter : Filter) : FilterField → Option JsonValue
  | .ids => JsonValue.ofList (filter.ids.map fun id => .string id.text)
  | .authors => JsonValue.ofList (filter.authors.map fun author => .string author.text)
  | .kinds => JsonValue.ofList (filter.kinds.map fun kind => .unsigned kind.asU64)
  | .since => filter.since.map .unsigned
  | .until => filter.until.map .unsigned
  | .limit => filter.limit.map .unsigned
  | .search => filter.search.map .string
  | .tag name => filter.tagFilters[name]?.map JsonValue.texts

end Filter

/-- Lists of values that print alike are equal when their items are. -/
theorem JsonValue.ofList_inj {α : Type} {f : α → JsonValue} (hf : Function.Injective f)
    {xs ys : List α} (h : ofList (xs.map f) = ofList (ys.map f)) : xs = ys := by
  cases xs with
  | nil =>
    cases ys with
    | nil => rfl
    | cons y ys => simp [ofList] at h
  | cons x xs =>
    cases ys with
    | nil => simp [ofList] at h
    | cons y ys =>
      refine List.map_injective_iff.mpr hf ?_
      simpa [ofList] using h

/-- Lists of texts that are alike as values are equal. -/
theorem JsonValue.texts_injective : Function.Injective texts := by
  intro a b h
  have hmap : a.map JsonValue.string = b.map JsonValue.string := JsonValue.array.inj h
  exact List.map_injective_iff.mpr (fun _ _ => JsonValue.string.inj) hmap

/-- Numbers that are alike as values are equal. -/
theorem JsonValue.unsigned_injective : Function.Injective unsigned := by
  intro a b h
  exact JsonNumber.posInt.inj (JsonValue.number.inj h)

/-- Kinds with one number are equal. -/
theorem Kind.asU64_injective : Function.Injective Kind.asU64 := by
  intro a b h
  have hnew : Kind.new a.asU64.toNat = Kind.new b.asU64.toNat := by rw [h]
  simpa using hnew

/-- A filter is determined by what it is written with. -/
theorem Filter.eq_of_written {filter filter' : Filter} (h : filter.written = filter'.written) :
    filter = filter' := by
  have hids := JsonValue.ofList_inj
    (fun _ _ heq => Hex64.text_injective (JsonValue.string.inj heq)) (congrFun h .ids)
  have hauthors := JsonValue.ofList_inj
    (fun _ _ heq => Hex64.text_injective (JsonValue.string.inj heq)) (congrFun h .authors)
  have hkinds := JsonValue.ofList_inj
    (JsonValue.unsigned_injective.comp Kind.asU64_injective) (congrFun h .kinds)
  have hmap := Option.map_injective JsonValue.unsigned_injective
  have hsince := hmap (congrFun h .since)
  have huntil := hmap (congrFun h .until)
  have hlimit := hmap (congrFun h .limit)
  have hsearch := Option.map_injective (fun _ _ => JsonValue.string.inj) (congrFun h .search)
  have htags : filter.tagFilters = filter'.tagFilters :=
    BTreeMap.ext fun name =>
      Option.map_injective JsonValue.texts_injective (congrFun h (.tag name))
  cases filter
  cases filter'
  simp_all

/-! ## Writing -/

/-- An object that holds the fields these values are given for and no other. -/
def JsonMap.Holds (object : JsonMap) (written : FilterField → Option JsonValue) : Prop :=
  ∀ (key : Text) (value : JsonValue),
    object[key]? = some value ↔ ∃ field, field.key = key ∧ written field = some value

namespace JsonMap.Holds

variable {object : JsonMap} {written : FilterField → Option JsonValue}

/-- A field inserted is one that the object holds. -/
theorem insert (h : object.Holds written) (field : FilterField) (value : JsonValue) :
    JsonMap.Holds (object.insert field.key value)
      (Function.update written field (some value)) := by
  intro key value'
  rw [BTreeMap.getElem?_insert]
  by_cases hkey : field.key = key
  · rw [if_pos hkey]
    refine ⟨fun heq => ⟨field, hkey, by rw [Function.update_self, heq]⟩, ?_⟩
    rintro ⟨field', hkey', heq⟩
    cases FilterField.key_injective (hkey.trans hkey'.symm)
    rwa [Function.update_self] at heq
  · rw [if_neg hkey, h]
    refine exists_congr fun field' => and_congr_right fun hkey' => ?_
    have hne : field' ≠ field := fun heq => hkey (heq ▸ hkey')
    rw [Function.update_of_ne hne]

/-- An optional field that is inserted only where it has a value leaves the object holding what was
to be written. -/
theorem insertSome (h : object.Holds written) (field : FilterField) {name : String}
    (hname : name.toList = field.key) (hnew : written field = none) (value : Option JsonValue) :
    (object.insertSome name value).Holds (Function.update written field value) := by
  cases value with
  | none =>
    have hsame : Function.update written field none = written :=
      Function.update_eq_self_iff.mpr hnew.symm
    rw [hsame]
    exact h
  | some value =>
    rw [JsonMap.insertSome, hname]
    exact h.insert field value

/-- A list that is inserted only where it has items leaves the object holding what was to be
written. -/
theorem insertList (h : object.Holds written) (field : FilterField) {name : String}
    (hname : name.toList = field.key) (hnew : written field = none) (items : List JsonValue) :
    (object.insertList name items).Holds
      (Function.update written field (JsonValue.ofList items)) := by
  have heq : object.insertList name items = object.insertSome name (JsonValue.ofList items) := by
    unfold JsonMap.insertList JsonValue.ofList
    split
    · rfl
    · rfl
  rw [heq]
  exact h.insertSome field hname hnew _

/-- Writing the tag fields one after the other. -/
theorem insertTags (h : object.Holds written) {tags : List (TagName × List Text)}
    (hnodup : (tags.map Prod.fst).Nodup)
    (hnew : ∀ tag ∈ tags, written (.tag tag.1) = none) :
    JsonMap.Holds (tags.foldl (fun object (name, values) =>
        object.insert name.field (JsonValue.texts values)) object)
      (fun
        | .tag name => ((tags.lookup name).map JsonValue.texts).or (written (.tag name))
        | field => written field) := by
  induction tags generalizing object written with
  | nil =>
    intro key value
    rw [List.foldl_nil, h]
    refine exists_congr fun field => and_congr_right fun _ => ?_
    cases field <;> rfl
  | cons tag rest ih =>
    obtain ⟨name, values⟩ := tag
    obtain ⟨hfirst, hrest⟩ := List.nodup_cons.mp hnodup
    have hlater : ∀ tag ∈ rest, Function.update written (.tag name)
        (some (JsonValue.texts values)) (.tag tag.1) = none := by
      intro tag htag
      have hne : FilterField.tag tag.1 ≠ .tag name := fun heq =>
        hfirst (List.mem_map.mpr ⟨tag, htag, FilterField.tag.inj heq⟩)
      rw [Function.update_of_ne hne]
      exact hnew tag (List.mem_cons_of_mem _ htag)
    have hholds := ih (h.insert (.tag name) (JsonValue.texts values)) hrest hlater
    intro key value
    refine (hholds key value).trans ?_
    refine exists_congr fun field => and_congr_right fun _ => ?_
    cases field with
    | tag name' =>
      by_cases hname : name' = name
      · subst hname
        have hnone : rest.lookup name' = none :=
          List.lookup_eq_none_iff.mpr fun tag htag => by
            rw [bne_iff_ne]
            exact fun heq => hfirst (List.mem_map.mpr ⟨tag, htag, heq.symm⟩)
        simp [hnone]
      · have hne : FilterField.tag name' ≠ .tag name := fun heq =>
          hname (FilterField.tag.inj heq)
        have hbeq : (name' == name) = false := beq_eq_false_iff_ne.mpr hname
        simp only [List.lookup_cons, hbeq, Function.update_of_ne hne]
    | _ => simp [Function.update_of_ne]

end JsonMap.Holds

/-- What is written for a filter is its value for every field. -/
theorem filterFields_holds (filter : Filter) : (filterFields filter).Holds filter.written := by
  have hempty : (∅ : JsonMap).Holds fun _ => none := by
    intro key value
    simp
  have hlists := ((hempty.insertList .ids rfl rfl
    (filter.ids.map fun id => .string id.text)).insertList .authors rfl rfl
    (filter.authors.map fun author => .string author.text)).insertList .kinds rfl rfl
    (filter.kinds.map fun kind => .unsigned kind.asU64)
  have hnames : (filter.tagFilters.toList.map Prod.fst).Nodup := BTreeMap.nodup_keys_toList
  have htags := hlists.insertTags hnames fun _ _ => rfl
  have hall := (((htags.insertSome .since rfl rfl
    (filter.since.map .unsigned)).insertSome .until rfl rfl
    (filter.until.map .unsigned)).insertSome .limit rfl rfl
    (filter.limit.map .unsigned)).insertSome .search rfl rfl
    (filter.search.map .string)
  intro key value
  refine (hall key value).trans (exists_congr fun field => and_congr_right fun _ => ?_)
  cases field with
  | tag name => simp [Filter.written, BTreeMap.lookup_toList, Function.update_of_ne]
  | _ => exact Iff.rfl

/-! ## Reading -/

section

variable {field : Text} {value : JsonValue}

/-- A value stands for a list of items exactly when it is that list and has an item. -/
theorem JsonValue.some_eq_ofList {items : List JsonValue} :
    some value = ofList items ↔ value = .array items ∧ items ≠ [] := by
  unfold ofList
  cases items with
  | nil => simp
  | cons item rest => simp

/-- An array of texts is read when it is that of the results, none of them refused. -/
theorem parseStringFilterArray_eq_ok {α : Type} {parseItem : Text → Except String α}
    {encode : α → Text} {Admits : α → Prop}
    (h : ∀ text item, parseItem text = .ok item ↔ text = encode item ∧ Admits item)
    {items : List α} :
    parseStringFilterArray field value parseItem = .ok items ↔
      some value = JsonValue.ofList (items.map fun item => .string (encode item)) ∧
        ∀ item ∈ items, Admits item := by
  have hitem : ∀ (raw : JsonValue) (item : α),
      (Except.okOr raw.asStr s!"filter field `{field.toMessage}` values must be strings" >>=
        parseItem) = .ok item ↔ raw = .string (encode item) ∧ Admits item := by
    intro raw item
    simp only [Except.bind_eq_ok, Except.okOr_eq_ok, JsonValue.asStr_eq_some, h]
    constructor
    · rintro ⟨_, hraw, htext, hitem⟩
      exact ⟨htext ▸ hraw, hitem⟩
    · rintro ⟨hraw, hitem⟩
      exact ⟨_, hraw, rfl, hitem⟩
  rw [JsonValue.some_eq_ofList, parseStringFilterArray, Except.bind_eq_ok]
  simp only [Except.okOr_eq_ok, JsonValue.asArray_eq_some]
  constructor
  · rintro ⟨array, hvalue, hread⟩
    split at hread
    · cases hread
    · next hempty =>
      obtain ⟨harray, hitems⟩ := (Except.mapM_eq_ok_iff_map hitem).mp hread
      subst harray
      exact ⟨⟨hvalue, by simpa using hempty⟩, hitems⟩
  · rintro ⟨⟨hvalue, hne⟩, hitems⟩
    refine ⟨_, hvalue, ?_⟩
    rw [if_neg (by simpa using hne)]
    exact (Except.mapM_eq_ok_iff_map hitem).mpr ⟨rfl, hitems⟩

/-- Kinds are parsed exactly from the list of their numbers. -/
theorem parseKindFilterArray_eq_ok {kinds : List Kind} :
    parseKindFilterArray field value = .ok kinds ↔
      some value = JsonValue.ofList (kinds.map fun kind => .unsigned kind.asU64) := by
  have hitem : ∀ (raw : JsonValue) (kind : Kind),
      (do
        let item ← Except.okOr raw.asU64
          s!"filter field `{field.toMessage}` values must be unsigned integers"
        (Kind.new item.toNat).mapError (filterFieldError field)) = .ok kind ↔
        raw = .unsigned kind.asU64 ∧ True := by
    intro raw kind
    simp only [Except.bind_eq_ok, Except.okOr_eq_ok, JsonValue.asU64_eq_some,
      Except.mapError_eq_ok, Kind.new_eq_ok, and_true]
    refine ⟨?_, fun hraw => ⟨_, hraw, ?_⟩⟩
    · rintro ⟨n, hraw, hkind⟩
      rw [hraw, Kind.asU64, hkind, UInt64.ofNat_toNat]
    · exact Kind.new_eq_ok.mp (Kind.new_asU64 kind)
  rw [JsonValue.some_eq_ofList, parseKindFilterArray, parseU64FilterArray, Except.bind_eq_ok]
  simp only [Except.okOr_eq_ok, JsonValue.asArray_eq_some]
  constructor
  · rintro ⟨array, hvalue, hread⟩
    split at hread
    · cases hread
    · next hempty =>
      obtain ⟨harray, -⟩ := (Except.mapM_eq_ok_iff_map hitem).mp hread
      subst harray
      exact ⟨hvalue, by simpa using hempty⟩
  · rintro ⟨hvalue, hne⟩
    refine ⟨_, hvalue, ?_⟩
    rw [if_neg (by simpa using hne)]
    exact (Except.mapM_eq_ok_iff_map hitem).mpr ⟨rfl, fun _ _ => trivial⟩

/-- Ids are parsed exactly from the list of their texts. -/
theorem parseEventIdFilterArray_eq_ok {ids : List EventId} :
    parseEventIdFilterArray field value = .ok ids ↔
      some value = JsonValue.ofList (ids.map fun id => .string id.text) := by
  have hitem : ∀ (text : Text) (id : EventId),
      (EventId.new text).mapError (filterFieldError field) = .ok id ↔ text = id.text ∧ True := by
    intro text id
    rw [Except.mapError_eq_ok, Hex64.new_eq_ok, and_true, eq_comm]
  exact (parseStringFilterArray_eq_ok hitem).trans (and_iff_left fun _ _ => trivial)

/-- Keys are parsed exactly from the list of their texts. -/
theorem parsePubkeyFilterArray_eq_ok {pubkeys : List PublicKeyHex} :
    parsePubkeyFilterArray field value = .ok pubkeys ↔
      some value = JsonValue.ofList (pubkeys.map fun pubkey => .string pubkey.text) := by
  have hitem : ∀ (text : Text) (pubkey : PublicKeyHex),
      (PublicKeyHex.new text).mapError (filterFieldError field) = .ok pubkey ↔
        text = pubkey.text ∧ True := by
    intro text pubkey
    rw [Except.mapError_eq_ok, Hex64.new_eq_ok, and_true, eq_comm]
  exact (parseStringFilterArray_eq_ok hitem).trans (and_iff_left fun _ _ => trivial)

/-- The names of the tags whose values are ids or public keys. -/
def TagName.IsReference (name : Text) : Prop :=
  name = "e".toList ∨ name = "p".toList

instance (name : Text) : Decidable (TagName.IsReference name) :=
  inferInstanceAs (Decidable (_ ∨ _))

/-- The value of a tag is its text, which must be an id where the tag refers to one. -/
theorem parseTagValue_eq_ok {name text item : Text} :
    parseTagValue field name text = .ok item ↔
      text = item ∧ (TagName.IsReference name → IsHex64 item) := by
  have hhex : ∀ scalar : String,
      ((fun _ => text) <$> (Hex64.new scalar text).mapError (filterFieldError field)) = .ok item ↔
        text = item ∧ IsHex64 item := by
    intro scalar
    simp only [Except.map_eq_ok, Except.mapError_eq_ok]
    constructor
    · rintro ⟨id, hid, heq⟩
      exact ⟨heq, heq ▸ Hex64.new_isOk_iff.mp ⟨id, hid⟩⟩
    · rintro ⟨rfl, hitem⟩
      obtain ⟨id, hid⟩ := Hex64.new_isOk_iff.mpr hitem
      exact ⟨id, hid, rfl⟩
  unfold parseTagValue
  split
  · next he => rw [hhex]; simp [TagName.IsReference, he]
  · next he =>
    split
    · next hp => rw [hhex]; simp [TagName.IsReference, hp]
    · next hp =>
      rw [Except.ok.injEq]
      exact (and_iff_left fun href => absurd href (not_or.mpr ⟨he, hp⟩)).symm

/-- The field of a tag is read into the values it is written with, unless the name cannot be
searched or the values are references that are not hexadecimal. -/
theorem parseTagFilterField_eq_ok {name : Text} {tagName : TagName} {values : List Text} :
    parseTagFilterField field name value = .ok (tagName, values) ↔
      tagName.text = name ∧ tagName.isIndexable ∧ values ≠ [] ∧
        value = JsonValue.texts values ∧
        (TagName.IsReference name → ∀ item ∈ values, IsHex64 item) := by
  have hvalues : parseStringFilterArray field value (parseTagValue field name) = .ok values ↔
      some value = JsonValue.ofList (values.map .string) ∧
        ∀ item ∈ values, TagName.IsReference name → IsHex64 item :=
    parseStringFilterArray_eq_ok fun _ _ => parseTagValue_eq_ok
  rw [JsonValue.some_eq_ofList] at hvalues
  unfold parseTagFilterField
  simp only [Except.bind_eq_ok, Except.mapError_eq_ok, TagName.new_eq_ok]
  constructor
  · rintro ⟨found, hname, hread⟩
    split at hread
    · cases hread
    · next hindexable =>
      obtain ⟨read, hread, heq⟩ := Except.bind_eq_ok.mp hread
      cases heq
      obtain ⟨⟨hvalue, hne⟩, hhex⟩ := hvalues.mp hread
      exact ⟨hname, by simpa using hindexable, by simpa using hne, hvalue,
        fun href item hitem => hhex item hitem href⟩
  · rintro ⟨hname, hindexable, hne, hvalue, hhex⟩
    refine ⟨tagName, hname, ?_⟩
    rw [hindexable, Bool.not_true, if_neg Bool.false_ne_true,
      hvalues.mpr ⟨⟨hvalue, by simpa using hne⟩, fun item hitem href => hhex href item hitem⟩]
    rfl

end

namespace Filter

/-- A filter whose tag filters passed their checks. -/
def Checked (filter : Filter) : Prop :=
  ∀ (name : TagName) (values : List Text), filter.tagFilters[name]? = some values →
    name.isIndexable ∧ values ≠ []

/-- A filter that searches events and public keys by hexadecimal texts only. -/
def ReferencesAreHex (filter : Filter) : Prop :=
  ∀ (name : TagName) (values : List Text), filter.tagFilters[name]? = some values →
    TagName.IsReference name.text → ∀ value ∈ values, IsHex64 value

/-- What the reader checks of the field of a tag. -/
def Takes (field : FilterField) (raw : JsonValue) : Prop :=
  ∀ (name : TagName) (values : List Text), field = .tag name → raw = JsonValue.texts values →
    name.isIndexable ∧ values ≠ [] ∧
      (TagName.IsReference name.text → ∀ value ∈ values, IsHex64 value)

/-- A filter that differs from another in one field is written with one other value. -/
theorem written_eq_update {filter filter' : Filter} {field : FilterField} {raw : JsonValue}
    (hfield : filter'.written field = some raw)
    (hothers : ∀ other, other ≠ field → filter'.written other = filter.written other) :
    filter'.written = Function.update filter.written field (some raw) := by
  funext other
  by_cases hother : other = field
  · subst hother
    rw [Function.update_self, hfield]
  · rw [Function.update_of_ne hother, hothers other hother]

/-- A tag more changes no other field. -/
theorem written_insert_of_ne {filter : Filter} {name : TagName} {values : List Text}
    {other : FilterField} (hother : other ≠ .tag name) :
    { filter with tagFilters := filter.tagFilters.insert name values }.written other =
      filter.written other := by
  cases other with
  | tag name' =>
    have hname : name ≠ name' := fun heq => hother (heq ▸ rfl)
    simp only [written, BTreeMap.getElem?_insert_ne hname]
  | _ => rfl

/-- A field that is read is one the reader takes, and becomes the value it is written with. -/
theorem written_of_readField {filter filter' : Filter} {key : Text} {raw : JsonValue}
    (h : filter.readField key raw = .ok filter') :
    ∃ field : FilterField, field.key = key ∧ Takes field raw ∧
      filter'.written = Function.update filter.written field (some raw) := by
  unfold readField at h
  split_ifs at h with hids hauthors hkinds hsince huntil hlimit hsearch
  · obtain ⟨ids, hread, heq⟩ := Except.bind_eq_ok.mp h
    cases heq
    refine ⟨.ids, hids.symm, fun _ _ hfield => (nomatch hfield),
      written_eq_update (parseEventIdFilterArray_eq_ok.mp hread).symm ?_⟩
    intro other hother
    cases other <;> first | rfl | exact absurd rfl hother
  · obtain ⟨authors, hread, heq⟩ := Except.bind_eq_ok.mp h
    cases heq
    refine ⟨.authors, hauthors.symm, fun _ _ hfield => (nomatch hfield),
      written_eq_update (parsePubkeyFilterArray_eq_ok.mp hread).symm ?_⟩
    intro other hother
    cases other <;> first | rfl | exact absurd rfl hother
  · obtain ⟨kinds, hread, heq⟩ := Except.bind_eq_ok.mp h
    cases heq
    refine ⟨.kinds, hkinds.symm, fun _ _ hfield => (nomatch hfield),
      written_eq_update (parseKindFilterArray_eq_ok.mp hread).symm ?_⟩
    intro other hother
    cases other <;> first | rfl | exact absurd rfl hother
  · obtain ⟨since, hread, heq⟩ := Except.bind_eq_ok.mp h
    cases heq
    have hraw : raw = .unsigned since := JsonValue.asU64_eq_some.mp (Except.okOr_eq_ok.mp hread)
    refine ⟨.since, hsince.symm, fun _ _ hfield => (nomatch hfield),
      written_eq_update (congrArg some hraw).symm ?_⟩
    intro other hother
    cases other <;> first | rfl | exact absurd rfl hother
  · obtain ⟨«until», hread, heq⟩ := Except.bind_eq_ok.mp h
    cases heq
    have hraw : raw = .unsigned «until» := JsonValue.asU64_eq_some.mp (Except.okOr_eq_ok.mp hread)
    refine ⟨.until, huntil.symm, fun _ _ hfield => (nomatch hfield),
      written_eq_update (congrArg some hraw).symm ?_⟩
    intro other hother
    cases other <;> first | rfl | exact absurd rfl hother
  · obtain ⟨limit, hread, heq⟩ := Except.bind_eq_ok.mp h
    cases heq
    have hraw : raw = .unsigned limit := JsonValue.asU64_eq_some.mp (Except.okOr_eq_ok.mp hread)
    refine ⟨.limit, hlimit.symm, fun _ _ hfield => (nomatch hfield),
      written_eq_update (congrArg some hraw).symm ?_⟩
    intro other hother
    cases other <;> first | rfl | exact absurd rfl hother
  · obtain ⟨search, hread, heq⟩ := Except.bind_eq_ok.mp h
    cases heq
    have hraw : raw = .string search := JsonValue.asStr_eq_some.mp (Except.okOr_eq_ok.mp hread)
    refine ⟨.search, hsearch.symm, fun _ _ hfield => (nomatch hfield),
      written_eq_update (congrArg some hraw).symm ?_⟩
    intro other hother
    cases other <;> first | rfl | exact absurd rfl hother
  · split at h
    · next name =>
      obtain ⟨⟨tagName, values⟩, hread, heq⟩ := Except.bind_eq_ok.mp h
      cases heq
      obtain ⟨rfl, hindexable, hne, hraw, hhex⟩ := parseTagFilterField_eq_ok.mp hread
      refine ⟨.tag tagName, rfl, ?_, written_eq_update ?_ ?_⟩
      · intro name' values' hname' hvalues'
        cases FilterField.tag.inj hname'
        cases JsonValue.texts_injective (hraw.symm.trans hvalues')
        exact ⟨hindexable, hne, hhex⟩
      · rw [written, BTreeMap.getElem?_insert_self, Option.map_some, hraw]
      · exact fun other hother => written_insert_of_ne hother
    · cases h

/-- A field of a filter is read into any other, unless it holds the values of a tag that are
refused. -/
theorem readField_succeeds {filter : Filter} {field : FilterField} {raw : JsonValue}
    (hchecked : filter.Checked) (hhex : filter.ReferencesAreHex)
    (h : filter.written field = some raw) (into : Filter) :
    (into.readField field.key raw).Succeeds := by
  have hkeys : ∀ {name name' : String}, name ≠ name' → name.toList ≠ name'.toList :=
    fun hne heq => hne (String.toList_inj.mp heq)
  have hu64 : ∀ (key : Text) {value : Option UInt64},
      value.map JsonValue.unsigned = some raw → ∃ n, parseU64FilterField key raw = .ok n := by
    intro key value hvalue
    obtain ⟨n, -, hraw⟩ := Option.map_eq_some_iff.mp hvalue
    exact ⟨n, Except.okOr_eq_ok.mpr (JsonValue.asU64_eq_some.mpr hraw.symm)⟩
  cases field with
  | ids =>
    have hread : parseEventIdFilterArray "ids".toList raw = .ok filter.ids :=
      parseEventIdFilterArray_eq_ok.mpr h.symm
    change (into.readField "ids".toList raw).Succeeds
    rw [readField.eq_def, if_pos rfl]
    exact Except.succeeds_bind.mpr ⟨_, hread, Except.succeeds_ok _⟩
  | authors =>
    have hread : parsePubkeyFilterArray "authors".toList raw = .ok filter.authors :=
      parsePubkeyFilterArray_eq_ok.mpr h.symm
    change (into.readField "authors".toList raw).Succeeds
    rw [readField.eq_def, if_neg (hkeys (by decide)), if_pos rfl]
    exact Except.succeeds_bind.mpr ⟨_, hread, Except.succeeds_ok _⟩
  | kinds =>
    have hread : parseKindFilterArray "kinds".toList raw = .ok filter.kinds :=
      parseKindFilterArray_eq_ok.mpr h.symm
    change (into.readField "kinds".toList raw).Succeeds
    rw [readField.eq_def, if_neg (hkeys (by decide)), if_neg (hkeys (by decide)),
      if_pos rfl]
    exact Except.succeeds_bind.mpr ⟨_, hread, Except.succeeds_ok _⟩
  | since =>
    obtain ⟨n, hread⟩ := hu64 "since".toList h
    change (into.readField "since".toList raw).Succeeds
    rw [readField.eq_def, if_neg (hkeys (by decide)), if_neg (hkeys (by decide)),
      if_neg (hkeys (by decide)), if_pos rfl]
    exact Except.succeeds_bind.mpr ⟨_, hread, Except.succeeds_ok _⟩
  | «until» =>
    obtain ⟨n, hread⟩ := hu64 "until".toList h
    change (into.readField "until".toList raw).Succeeds
    rw [readField.eq_def, if_neg (hkeys (by decide)), if_neg (hkeys (by decide)),
      if_neg (hkeys (by decide)), if_neg (hkeys (by decide)), if_pos rfl]
    exact Except.succeeds_bind.mpr ⟨_, hread, Except.succeeds_ok _⟩
  | limit =>
    obtain ⟨n, hread⟩ := hu64 "limit".toList h
    change (into.readField "limit".toList raw).Succeeds
    rw [readField.eq_def, if_neg (hkeys (by decide)), if_neg (hkeys (by decide)),
      if_neg (hkeys (by decide)), if_neg (hkeys (by decide)), if_neg (hkeys (by decide)),
      if_pos rfl]
    exact Except.succeeds_bind.mpr ⟨_, hread, Except.succeeds_ok _⟩
  | search =>
    obtain ⟨text, -, hraw⟩ := Option.map_eq_some_iff.mp h
    have hread : parseStringFilterField "search".toList raw = .ok text :=
      Except.okOr_eq_ok.mpr (JsonValue.asStr_eq_some.mpr hraw.symm)
    change (into.readField "search".toList raw).Succeeds
    rw [readField.eq_def, if_neg (hkeys (by decide)), if_neg (hkeys (by decide)),
      if_neg (hkeys (by decide)), if_neg (hkeys (by decide)), if_neg (hkeys (by decide)),
      if_neg (hkeys (by decide)), if_pos rfl]
    exact Except.succeeds_bind.mpr ⟨_, hread, Except.succeeds_ok _⟩
  | tag name =>
    obtain ⟨values, hvalues, hraw⟩ := Option.map_eq_some_iff.mp h
    obtain ⟨hindexable, hne⟩ := hchecked name values hvalues
    have hread : parseTagFilterField name.field name.text raw = .ok (name, values) :=
      parseTagFilterField_eq_ok.mpr ⟨rfl, hindexable, hne, hraw.symm, hhex name values hvalues⟩
    have hkey : ∀ {fixed : String}, fixed.toList.head? ≠ some '#' →
        '#' :: name.text ≠ fixed.toList := fun hhead heq => hhead (heq ▸ rfl)
    change (into.readField ('#' :: name.text) raw).Succeeds
    rw [readField.eq_def, if_neg (hkey (by simp)),
      if_neg (hkey (by simp)), if_neg (hkey (by simp)), if_neg (hkey (by simp)),
      if_neg (hkey (by simp)), if_neg (hkey (by simp)), if_neg (hkey (by simp))]
    exact Except.succeeds_bind.mpr ⟨_, hread, Except.succeeds_ok _⟩

/-- Reading a field keeps the checks of the tag filters. -/
theorem Checked.readField {filter filter' : Filter} {key : Text} {raw : JsonValue}
    (h : filter.Checked) (hread : filter.readField key raw = .ok filter') : filter'.Checked := by
  obtain ⟨field, rfl, htakes, hwritten⟩ := written_of_readField hread
  intro name values hvalues
  have htag : filter'.written (.tag name) = some (JsonValue.texts values) := by
    rw [written, hvalues, Option.map_some]
  rw [hwritten] at htag
  by_cases hfield : field = .tag name
  · subst hfield
    rw [Function.update_self, Option.some.injEq] at htag
    obtain ⟨hindexable, hne, -⟩ := htakes name values rfl htag
    exact ⟨hindexable, hne⟩
  · have hne : FilterField.tag name ≠ field := fun heq => hfield heq.symm
    rw [Function.update_of_ne hne, written, Option.map_eq_some_iff] at htag
    obtain ⟨held, hheld, heq⟩ := htag
    exact h name values (JsonValue.texts_injective heq ▸ hheld)

end Filter

/-- What a filter read from fields of different names is written with. -/
theorem written_of_foldlM {fields : List (Text × JsonValue)} {into filter : Filter}
    (hnodup : (fields.map Prod.fst).Nodup)
    (h : fields.foldlM (fun filter (key, raw) => filter.readField key raw) into = .ok filter)
    (field : FilterField) :
    filter.written field = (fields.lookup field.key).or (into.written field) := by
  induction fields generalizing into with
  | nil =>
    cases h
    rfl
  | cons first rest ih =>
    obtain ⟨key, raw⟩ := first
    obtain ⟨hfirst, hrest⟩ := List.nodup_cons.mp hnodup
    obtain ⟨next, hread, hnext⟩ := Except.foldlM_cons_ok.mp h
    obtain ⟨field', rfl, -, hwritten⟩ := Filter.written_of_readField hread
    rw [ih hrest hnext, hwritten]
    by_cases hfield : field = field'
    · subst hfield
      have hnone : rest.lookup field.key = none :=
        List.lookup_eq_none_iff.mpr fun other hother => by
          rw [bne_iff_ne]
          exact fun heq => hfirst (List.mem_map.mpr ⟨other, hother, heq.symm⟩)
      simp [hnone]
    · have hkey : (field.key == field'.key) = false :=
        beq_false_of_ne fun heq => hfield (FilterField.key_injective heq)
      rw [List.lookup_cons, hkey, Function.update_of_ne hfield]

/-- A filter comes back from its JSON form exactly when what it searches events and public keys by
is hexadecimal. -/
theorem filterFromValue_filterToValue_iff {filter : Filter} (hchecked : filter.Checked) :
    filterFromValue (filterToValue filter) = .ok filter ↔ filter.ReferencesAreHex := by
  have hholds := filterFields_holds filter
  have hlookup : ∀ field : FilterField,
      (filterFields filter).toList.lookup field.key = filter.written field := by
    intro field
    rw [BTreeMap.lookup_toList]
    refine Option.ext fun value => (hholds field.key value).trans ⟨fun ⟨field', hkey, hvalue⟩ => ?_,
      fun hvalue => ⟨field, rfl, hvalue⟩⟩
    cases FilterField.key_injective hkey
    exact hvalue
  refine ⟨fun h => ?_, fun hhex => ?_⟩
  · intro name values hvalues href
    have hin : (name.field, JsonValue.texts values) ∈ (filterFields filter).toList := by
      refine BTreeMap.mem_toList.mpr ((hholds _ _).mpr ⟨.tag name, rfl, ?_⟩)
      rw [Filter.written, hvalues, Option.map_some]
    obtain ⟨into, filter', hread⟩ := Except.foldlM_steps h _ hin
    obtain ⟨field, hkey, htakes, -⟩ := Filter.written_of_readField hread
    obtain ⟨-, -, hhex⟩ :=
      htakes name values (FilterField.key_injective (hkey.trans rfl)) rfl
    exact hhex href
  · have hreads : ∀ (into : Filter) (field : Text × JsonValue),
        field ∈ (filterFields filter).toList → True →
          ∃ next, into.readField field.1 field.2 = .ok next ∧ True := by
      intro into field hfield _
      obtain ⟨field', hkey, hvalue⟩ := (hholds _ _).mp (BTreeMap.mem_toList.mp hfield)
      obtain ⟨next, hnext⟩ := Filter.readField_succeeds hchecked hhex hvalue into
      exact ⟨next, hkey ▸ hnext, trivial⟩
    obtain ⟨read, hread, -⟩ : ∃ read, (filterFields filter).toList.foldlM
        (fun filter (key, raw) => filter.readField key raw) Filter.empty = .ok read ∧ True :=
      Except.foldlM_succeeds (fun _ => True) hreads trivial
    have heq : read = filter := Filter.eq_of_written <| funext fun field => by
      rw [written_of_foldlM BTreeMap.nodup_keys_toList hread, hlookup]
      cases hvalue : filter.written field with
      | some value => rfl
      | none => cases field <;> rfl
    exact heq ▸ hread

/-- Every filter the program can hold has passed the checks of its tag filters. -/
theorem Filter.Obtainable.checked {filter : Filter} (h : filter.Obtainable) : filter.Checked := by
  induction h with
  | empty => exact fun name values hvalues => by simp [Filter.empty] at hvalues
  | fromParts built =>
    obtain ⟨_, hchecks, heq⟩ := Except.bind_eq_ok.mp built
    cases heq
    intro name values hvalues
    have hcheck := Except.forM_eq_ok.mp hchecks (name, values) (BTreeMap.mem_toList.mpr hvalues)
    simp only [Filter.checkTag] at hcheck
    split_ifs at hcheck with hindexable hempty
    exact ⟨by simpa using hindexable, by simpa using hempty⟩
  | withLimit limit _ ih => exact ih
  | withoutLimit _ ih => exact ih
  | filterFromValue read =>
    obtain ⟨object, -, hfold⟩ := Except.bind_eq_ok.mp read
    have hempty : Filter.empty.Checked := fun name values hvalues => by
      simp [Filter.empty] at hvalues
    exact Except.foldlM_invariant Filter.Checked
      (fun filter field filter' _ hfilter hread => hfilter.readField hread) hempty hfold

/-- A filter whose tag filters pass their checks is one that can be built from its parts. -/
theorem Filter.Checked.obtainable {filter : Filter} (h : filter.Checked) : filter.Obtainable := by
  have hchecks : forM filter.tagFilters.toList
      (fun (name, values) => Filter.checkTag name values) = .ok () := by
    refine Except.forM_eq_ok.mpr fun tag htag => ?_
    obtain ⟨hindexable, hne⟩ := h tag.1 tag.2 (BTreeMap.mem_toList.mp htag)
    have hempty : tag.2.isEmpty = false := by simpa using hne
    simp [Filter.checkTag, hindexable, hempty]
  have hbuilt : Filter.fromParts filter.ids filter.authors filter.kinds filter.tagFilters
      filter.since filter.until filter.limit filter.search = .ok filter := by
    rw [Filter.fromParts, hchecks, Except.ok_bind]
  exact .fromParts hbuilt

/-- An event survives its JSON form, printed or not, and of the filters the program can hold those
do whose `e` and `p` values are hexadecimal. -/
theorem json_forms_read_back {json : SerdeJson} (hjson : json.Inverse) :
    (∀ event : Event, eventFromValue (eventToValue event) = .ok event ∧
      (RawEventJson.new (json.toText (eventToValue event)) >>= parseEventJson json) =
        .ok event) ∧
      ∀ filter : Filter, filter.Obtainable →
        (filterFromValue (filterToValue filter) = .ok filter ↔ filter.ReferencesAreHex) := by
  refine ⟨fun event => ⟨eventFromValue_eventToValue event, ?_⟩, fun filter hfilter => ?_⟩
  · exact parseEventJson_eventToValue hjson event
  · exact filterFromValue_filterToValue_iff hfilter.checked

namespace Sample

/-- The tag that names events. -/
def eName : TagName := ⟨"e".toList, by simp⟩

/-- A note with a quoted text and a tag without values. -/
def quotedNote : Event where
  id := .repeated 'a' (Eq.refl true)
  unsigned := {
    pubkey := .repeated 'b' (Eq.refl true)
    createdAt := 1700000000
    kind := ⟨1, by decide⟩
    tags := [⟨["t".toList, "market".toList], _, rfl, by simp⟩, ⟨["-".toList], _, rfl, by simp⟩]
    content := "\"carrots\"\n".toList }
  sig := ⟨List.replicate 128 'c', List.length_replicate, by simp; rfl⟩

/-- A filter that searches for one topic. -/
def topic : Filter :=
  { Filter.empty with
    tagFilters := (∅ : BTreeMap TagName (List Text)).insert ⟨"t".toList, by simp⟩
      ["market".toList]
    limit := some 5 }

/-- Tag values that pass the checks make a filter that is read back. -/
theorem insert_checked {name : TagName} {values : List Text} {limit : Option UInt64}
    (hindexable : name.isIndexable) (hne : values ≠ []) :
    { Filter.empty with
      tagFilters := (∅ : BTreeMap TagName (List Text)).insert name values
      limit }.Checked := by
  intro name' values' hvalues
  rw [BTreeMap.getElem?_insert] at hvalues
  split at hvalues
  · next hname =>
    subst hname
    cases hvalues
    exact ⟨hindexable, hne⟩
  · rw [BTreeMap.getElem?_empty] at hvalues
    cases hvalues

/-- A filter for the events that refer to a text which is no id. -/
def mentions : Filter :=
  { Filter.empty with
    tagFilters := (∅ : BTreeMap TagName (List Text)).insert eName ["carrots".toList]
    limit := none }

end Sample

/-- The theorem at an event that quotes another, its filter and their texts. -/
theorem json_forms_read_back_quotedNote :
    eventFromValue (eventToValue Sample.quotedNote) = .ok Sample.quotedNote ∧
      (RawEventJson.new (compactJson.toText (eventToValue Sample.quotedNote)) >>=
        parseEventJson compactJson) = .ok Sample.quotedNote ∧
      filterFromValue (filterToValue Sample.topic) = .ok Sample.topic := by
  obtain ⟨hevents, hfilters⟩ := json_forms_read_back compactJson_inverse
  have hchecked : Sample.topic.Checked := Sample.insert_checked rfl (List.cons_ne_nil _ _)
  have hhex : Sample.topic.ReferencesAreHex := by
    intro name values hvalues href
    rw [Sample.topic, BTreeMap.getElem?_insert] at hvalues
    split at hvalues
    · next hname =>
      subst hname
      exact absurd href (by decide)
    · rw [BTreeMap.getElem?_empty] at hvalues
      cases hvalues
  exact ⟨(hevents Sample.quotedNote).1, (hevents Sample.quotedNote).2,
    (hfilters Sample.topic hchecked.obtainable).mpr hhex⟩

/-- A filter built from its parts searches for any text under `e`, while the reader takes nothing
but ids there, and so refuses what the filter is written as. -/
theorem mentions_not_read_back :
    Sample.mentions.Obtainable ∧
      filterFromValue (filterToValue Sample.mentions) ≠ .ok Sample.mentions := by
  have hchecked : Sample.mentions.Checked := Sample.insert_checked rfl (List.cons_ne_nil _ _)
  refine ⟨hchecked.obtainable, fun h => ?_⟩
  have hhex := (filterFromValue_filterToValue_iff hchecked).mp h
  have hcarrots : IsHex64 "carrots".toList := hhex Sample.eName ["carrots".toList]
    BTreeMap.getElem?_insert_self (.inl rfl) _ (List.mem_singleton_self _)
  exact absurd hcarrots (by decide)

end Tangle
