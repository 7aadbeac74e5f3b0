import Mathlib.Algebra.Order.BigOperators.Group.List
import Mathlib.Algebra.Order.Group.Nat
import Tangle.Groups.Signing

/-!
# The size of a metadata snapshot

A metadata snapshot repeats tags of the event the metadata was read from: one tag for the group,
and for each text, flag and list of kinds at most one tag, no longer than the tag it was read from.
So the snapshot of what an event says fits wherever the event itself fits
(`size_uncheckedMetadataTags_le`), whatever the library's encoding adds to a tag and to a value.
-/

namespace Tangle

open GroupEventView

/-! ## Sizes of text tags -/

namespace TagCodec

variable (codec : TagCodec)

/-- The bytes of one tag of texts. -/
def textTagSize (tag : List Text) : Nat :=
  codec.perTag + (tag.map fun value => codec.perValue + value.byteLen).sum

/-- The bytes of tags of texts, without the header of the section. -/
def textTagsSize (tags : List (List Text)) : Nat :=
  (tags.map codec.textTagSize).sum

variable {codec}

@[simp] theorem textTagsSize_nil : codec.textTagsSize [] = 0 := rfl
@[simp] theorem textTagsSize_cons (tag : List Text) (tags : List (List Text)) :
    codec.textTagsSize (tag :: tags) = codec.textTagSize tag + codec.textTagsSize tags := by
  simp [textTagsSize]
@[simp] theorem textTagsSize_append (tags tags' : List (List Text)) :
    codec.textTagsSize (tags ++ tags') = codec.textTagsSize tags + codec.textTagsSize tags' := by
  simp [textTagsSize]

/-- The bytes of tags are those of their section. -/
theorem size_toTagValues (tags : List (List Text)) :
    codec.size (toTagValues tags) = codec.header + codec.textTagsSize tags := by
  have htag : ∀ tag : List Text, codec.tagSize (tag.map .text) = codec.textTagSize tag := by
    intro tag
    simp only [tagSize, textTagSize, List.map_map]
    rfl
  simp only [size, toTagValues, textTagsSize, List.map_map]
  exact congrArg (fun f => codec.header + (tags.map f).sum) (funext htag)

/-- A tag is as long as any of its beginnings, or longer. -/
theorem textTagSize_prefix_le (start rest : List Text) :
    codec.textTagSize start ≤ codec.textTagSize (start ++ rest) := by
  simp only [textTagSize, List.map_append, List.sum_append]
  omega

end TagCodec

/-- An event that decodes has text tags only. -/
theorem GroupEventView.Decodes.tags_eq {event : PocketEvent} {tags : List GroupEventTag}
    (h : Decodes event tags) : event.tags = toTagValues (tags.map GroupEventTag.values) := by
  have hvalue : ∀ {values : List TagValue} {texts : List Text},
      values.mapM tagValueUtf8 = .ok texts → values = texts.map .text := by
    intro values texts htexts
    have hall := Except.mapM_eq_ok.mp htexts
    clear htexts
    induction hall with
    | nil => rfl
    | @cons value text _ _ hvalue _ ih =>
      cases value with
      | text value => cases hvalue; rw [ih]; rfl
      | raw bytes => cases hvalue
  have hall := Except.mapM_eq_ok.mp h
  clear h
  generalize event.tags = raws at hall
  induction hall with
  | nil => rfl
  | cons htag _ ih =>
    obtain ⟨texts, htexts, htag⟩ := Except.bind_eq_ok.mp htag
    cases htag
    rw [ih, hvalue htexts]
    rfl

/-! ## Tags and what is read from them -/

namespace GroupEventTag

/-- A named tag starts with its name. -/
theorem values_of_isNamed {tag : GroupEventTag} {name : String} (h : tag.isNamed name = true) :
    ∃ rest, tag.values = name.toList :: rest := by
  have hfirst : tag.firstValue = some name.toList := beq_iff_eq.mp h
  obtain ⟨values⟩ := tag
  cases values with
  | nil => cases hfirst
  | cons first rest => cases hfirst; exact ⟨rest, rfl⟩

/-- A named tag with a value starts with its name and the value. -/
theorem values_of_isNamed_value {tag : GroupEventTag} {name : String} {value : Text}
    (h : tag.isNamed name = true) (hvalue : tag.value 1 = some value) :
    ∃ rest, tag.values = [name.toList, value] ++ rest := by
  obtain ⟨rest, hrest⟩ := values_of_isNamed h
  rw [GroupEventTag.value, hrest] at hvalue
  cases rest with
  | nil => cases hvalue
  | cons first rest => cases hvalue; exact ⟨rest, hrest⟩

end GroupEventTag

section
variable {codec : TagCodec} {tag : GroupEventTag} {limits : GroupLimitsConfig}

/-- The bytes of the tag a text field makes. -/
def textFieldSize (codec : TagCodec) (name : String) (value : Option Text) : Nat :=
  codec.textTagsSize (metadataTextTag name value)

/-- The bytes of a flag's tag, if it is set. -/
def flagFieldSize (codec : TagCodec) (name : String) (flag : Bool) : Nat :=
  codec.textTagsSize (metadataFlagTag name flag)

/-- A text read from a tag makes a tag that is no longer. -/
theorem textFieldSize_le {name : String} {maxBytes : Nat} {value : Option Text}
    (hname : tag.isNamed name = true) (h : parseTextTag tag name maxBytes = .ok value) :
    textFieldSize codec name value ≤ codec.textTagSize tag.values := by
  unfold parseTextTag at h
  split at h
  · cases h
    exact Nat.zero_le _
  · next text htext =>
    split at h
    · cases h
    · cases h
      obtain ⟨rest, hrest⟩ := GroupEventTag.values_of_isNamed_value hname htext
      have hsize : textFieldSize codec name (some text) =
          codec.textTagSize [name.toList, text] := by
        simp [textFieldSize, metadataTextTag]
      rw [hrest, hsize]
      exact codec.textTagSize_prefix_le _ _

/-- A flag read from a tag makes a tag that is no longer. -/
theorem flagFieldSize_le {name : String} (hname : tag.isNamed name = true) (flag : Bool) :
    flagFieldSize codec name flag ≤ codec.textTagSize tag.values := by
  obtain ⟨rest, hrest⟩ := GroupEventTag.values_of_isNamed hname
  cases flag with
  | false => exact Nat.zero_le _
  | true =>
    have hsize : flagFieldSize codec name true = codec.textTagSize [name.toList] := by
      simp [flagFieldSize, metadataFlagTag]
    rw [hrest, hsize]
    exact codec.textTagSize_prefix_le [name.toList] rest

/-- Kinds read from texts are spelled in no more bytes than the texts. -/
theorem kinds_byteLen_le {values : List Text} {kinds : BTreeSet Kind}
    (h : values.foldlM (fun (kinds : BTreeSet Kind) value => do
        return kinds.insert (← parseSupportedKind value)) ∅ = .ok kinds) :
    ((kinds.toList.map fun kind => Text.ofNat kind.value).map
        fun value => codec.perValue + value.byteLen).sum ≤
      (values.map fun value => codec.perValue + value.byteLen).sum := by
  have hread : ∀ {values : List Text} {start kinds : BTreeSet Kind},
      values.foldlM (fun (kinds : BTreeSet Kind) value => do
        return kinds.insert (← parseSupportedKind value)) start = .ok kinds →
      ∃ read : List Kind, values.mapM parseSupportedKind = .ok read ∧
        ∀ kind ∈ kinds, kind ∈ start ∨ kind ∈ read := by
    intro values
    induction values with
    | nil =>
      intro start kinds h
      cases h
      exact ⟨[], rfl, fun kind hkind => .inl hkind⟩
    | cons value rest ih =>
      intro start kinds h
      obtain ⟨next, hnext, hrest⟩ := Except.foldlM_cons_ok.mp h
      obtain ⟨kind, hkind, hnext⟩ := Except.bind_eq_ok.mp hnext
      cases hnext
      obtain ⟨read, hread, hmem⟩ := ih hrest
      refine ⟨kind :: read, ?_, fun k hk => ?_⟩
      · rw [List.mapM_cons, hkind, Except.ok_bind, hread]
        rfl
      · rcases hmem k hk with hk | hk
        · rcases BTreeSet.mem_insert.mp hk with rfl | hk
          · exact .inr (List.mem_cons_self ..)
          · exact .inl hk
        · exact .inr (List.mem_cons_of_mem _ hk)
  obtain ⟨read, hread, hmem⟩ := hread h
  have hsub : kinds.toList.Subperm read := by
    refine List.subperm_of_subset BTreeSet.nodup_toList fun kind hkind => ?_
    rcases hmem kind (BTreeSet.mem_toList.mp hkind) with hnone | hread
    · exact absurd hnone BTreeSet.not_mem_empty
    · exact hread
  obtain ⟨sorted, hperm, hsublist⟩ := hsub
  let cost : Kind → Nat := fun kind => codec.perValue + (Text.ofNat kind.value).byteLen
  have hsorted : (kinds.toList.map cost).sum = (sorted.map cost).sum :=
    ((hperm.map cost).sum_eq).symm
  have hle : (sorted.map cost).sum ≤ (read.map cost).sum :=
    (hsublist.map cost).sum_le_sum fun _ _ => Nat.zero_le _
  have hcost : (read.map cost).sum ≤
      (values.map fun value => codec.perValue + value.byteLen).sum := by
    have hall := Except.mapM_eq_ok.mp hread
    clear hread hmem hsublist hle hsorted h hperm
    induction hall with
    | nil => exact le_refl _
    | @cons value kind _ _ hvalue _ ih =>
      simp only [List.map_cons, List.sum_cons]
      have hlen : (Text.ofNat kind.value).byteLen ≤ value.byteLen := by
        unfold parseSupportedKind at hvalue
        split at hvalue
        · cases hvalue
        · next raw hraw =>
          have hkind := Kind.new_eq_ok.mp (Except.mapError_eq_ok.mp hvalue)
          rw [hkind]
          exact Text.byteLen_ofNat_le hraw
      have hfirst : cost kind ≤ codec.perValue + value.byteLen := Nat.add_le_add_left hlen _
      exact Nat.add_le_add hfirst ih
  rw [List.map_map]
  exact le_trans (le_of_eq hsorted) (le_trans hle hcost)

/-- Kinds read from a tag make a tag that is no longer. -/
theorem supportedKindsTag_le {kinds : SupportedKinds}
    (hname : tag.isNamed "supported_kinds" = true)
    (h : parseSupportedKindsTag tag limits = .ok kinds) :
    codec.textTagsSize (supportedKindsTag kinds) ≤ codec.textTagSize tag.values := by
  obtain ⟨rest, hrest⟩ := GroupEventTag.values_of_isNamed hname
  unfold parseSupportedKindsTag at h
  rw [hrest, List.drop_one, List.tail_cons] at h
  rw [hrest]
  dsimp only at h
  split at h
  · cases h
    have hsize : codec.textTagsSize (supportedKindsTag .none) =
        codec.textTagSize ["supported_kinds".toList] := by
      simp [supportedKindsTag]
    rw [hsize]
    exact codec.textTagSize_prefix_le ["supported_kinds".toList] rest
  · split at h
    · cases h
    · obtain ⟨set, hset, h⟩ := Except.bind_eq_ok.mp h
      cases h
      have hle := @kinds_byteLen_le codec _ _ hset
      simp only [supportedKindsTag, TagCodec.textTagsSize_cons, TagCodec.textTagsSize_nil,
        TagCodec.textTagSize, List.map_cons, List.sum_cons] at hle ⊢
      omega

end

/-! ## The metadata of an event -/

/-- The bytes of the tags that metadata makes, the group's own tag aside. -/
def MetadataBuilder.size (codec : TagCodec) (builder : MetadataBuilder) : Nat :=
  textFieldSize codec "name" builder.name + textFieldSize codec "picture" builder.picture +
    textFieldSize codec "about" builder.about + flagFieldSize codec "private" builder.isPrivate +
    flagFieldSize codec "restricted" builder.restricted +
    flagFieldSize codec "hidden" builder.hidden + flagFieldSize codec "closed" builder.closed +
    codec.textTagsSize (supportedKindsTag (builder.supportedKinds.getD .unspecifiedAll))

/-- Reading a tag adds no more than the tag, and nothing when the tag names a group. -/
theorem MetadataBuilder.size_visit_le {codec : TagCodec} {limits : GroupLimitsConfig}
    {builder next : MetadataBuilder} {tag : GroupEventTag}
    (h : builder.visit limits tag = .ok next) :
    next.size codec ≤ builder.size codec +
      if tag.firstValue.any isGroupIdentityTagName then 0 else codec.textTagSize tag.values := by
  have hname : ∀ {name : String}, tag.isNamed name = true →
      isGroupIdentityTagName name.toList = false →
      (if tag.firstValue.any isGroupIdentityTagName then 0 else codec.textTagSize tag.values) =
        codec.textTagSize tag.values := by
    intro name htag hidentity
    have hfirst : tag.firstValue = some name.toList := beq_iff_eq.mp htag
    simp [hfirst, hidentity]
  cases MetadataBuilder.reads_of_visit h with
  | name htag hvalue =>
    have hle := @textFieldSize_le codec _ _ _ _ htag hvalue
    rw [hname htag (by decide)]
    simp only [MetadataBuilder.size]
    omega
  | picture htag hvalue =>
    have hle := @textFieldSize_le codec _ _ _ _ htag hvalue
    rw [hname htag (by decide)]
    simp only [MetadataBuilder.size]
    omega
  | about htag hvalue =>
    have hle := @textFieldSize_le codec _ _ _ _ htag hvalue
    rw [hname htag (by decide)]
    simp only [MetadataBuilder.size]
    omega
  | isPrivate htag =>
    have hle := @flagFieldSize_le codec _ _ htag true
    rw [hname htag (by decide)]
    simp only [MetadataBuilder.size]
    omega
  | restricted htag =>
    have hle := @flagFieldSize_le codec _ _ htag true
    rw [hname htag (by decide)]
    simp only [MetadataBuilder.size]
    omega
  | hidden htag =>
    have hle := @flagFieldSize_le codec _ _ htag true
    rw [hname htag (by decide)]
    simp only [MetadataBuilder.size]
    omega
  | closed htag =>
    have hle := @flagFieldSize_le codec _ _ htag true
    rw [hname htag (by decide)]
    simp only [MetadataBuilder.size]
    omega
  | supportedKinds htag _ hkinds =>
    have hle := @supportedKindsTag_le codec _ _ _ htag hkinds
    rw [hname htag (by decide)]
    simp only [MetadataBuilder.size, Option.getD_some]
    omega
  | other _ => exact Nat.le_add_right _ _

/-- The tags of a snapshot are the group's tag and the tags the metadata makes. -/
theorem textTagsSize_uncheckedMetadataTags (codec : TagCodec) (groupId : GroupId)
    (builder : MetadataBuilder) :
    codec.textTagsSize (uncheckedMetadataTags groupId builder.finish) =
      codec.textTagSize ["d".toList, groupId.text] + builder.size codec := by
  simp only [uncheckedMetadataTags, MetadataBuilder.finish, MetadataBuilder.size, textFieldSize,
    flagFieldSize, List.cons_append, TagCodec.textTagsSize_cons, TagCodec.textTagsSize_append,
    Nat.add_assoc]

/-- Reading all tags adds no more than the tags that do not name a group. -/
theorem MetadataBuilder.size_foldlM_le {codec : TagCodec} {limits : GroupLimitsConfig}
    {tags : List GroupEventTag} {builder last : MetadataBuilder}
    (h : tags.foldlM (MetadataBuilder.visit limits) builder = .ok last) :
    last.size codec ≤ builder.size codec + codec.textTagsSize ((tags.filter fun tag =>
      !tag.firstValue.any isGroupIdentityTagName).map GroupEventTag.values) := by
  induction tags generalizing builder with
  | nil =>
    cases h
    exact Nat.le_add_right _ _
  | cons tag rest ih =>
    obtain ⟨next, hnext, hrest⟩ := Except.foldlM_cons_ok.mp h
    have hvisit := @MetadataBuilder.size_visit_le codec _ _ _ _ hnext
    have htail := ih hrest
    cases hidentity : tag.firstValue.any isGroupIdentityTagName with
    | true =>
      simp only [hidentity, if_true] at hvisit
      rw [List.filter_cons_of_neg (by simp [hidentity])]
      omega
    | false =>
      simp only [hidentity, Bool.false_eq_true, if_false] at hvisit
      rw [List.filter_cons_of_pos (by simp [hidentity]), List.map_cons,
        TagCodec.textTagsSize_cons]
      omega

/-- A tag that names a group and the tags that do not take no more than all tags. -/
theorem textTagsSize_identity_le {codec : TagCodec} {tags : List GroupEventTag}
    {tag : GroupEventTag} (hmem : tag ∈ tags)
    (hidentity : tag.firstValue.any isGroupIdentityTagName = true) :
    codec.textTagSize tag.values + codec.textTagsSize ((tags.filter fun tag =>
      !tag.firstValue.any isGroupIdentityTagName).map GroupEventTag.values) ≤
        codec.textTagsSize (tags.map GroupEventTag.values) := by
  induction tags with
  | nil => cases hmem
  | cons first rest ih =>
    have hle : ∀ tags : List GroupEventTag, codec.textTagsSize ((tags.filter fun tag =>
        !tag.firstValue.any isGroupIdentityTagName).map GroupEventTag.values) ≤
          codec.textTagsSize (tags.map GroupEventTag.values) := by
      intro tags
      exact ((List.filter_sublist.map _).map _).sum_le_sum fun _ _ => Nat.zero_le _
    rw [List.map_cons, TagCodec.textTagsSize_cons]
    rcases List.mem_cons.mp hmem with rfl | hrest
    · rw [List.filter_cons_of_neg (by simp [hidentity])]
      exact Nat.add_le_add_left (hle rest) _
    · cases hfirst : first.firstValue.any isGroupIdentityTagName with
      | true =>
        rw [List.filter_cons_of_neg (by simp [hfirst])]
        exact le_trans (ih hrest) (Nat.le_add_left _ _)
      | false =>
        rw [List.filter_cons_of_pos (by simp [hfirst]), List.map_cons,
          TagCodec.textTagsSize_cons]
        have := ih hrest
        omega

/-- The group a tag of an event names stands in one of the event's tags. -/
theorem extractGroupTag_mem {event : PocketEvent} {name : GroupTagName}
    {limits : GroupLimitsConfig} {groupTag : GroupTag} {tags : List GroupEventTag}
    (htags : Decodes event tags) (h : extractGroupTag event name limits = .ok (some groupTag)) :
    ∃ tag ∈ tags, tag.isNamed name.asStr = true ∧ tag.value 1 = some groupTag.groupId.text := by
  obtain ⟨found, hfound, h⟩ := Except.bind_eq_ok.mp h
  cases found with
  | none => cases h
  | some groupId =>
    cases h
    rw [htags.visitTags] at hfound
    refine Except.foldlM_invariant (fun found : Option GroupId => ∀ groupId, found = some groupId →
      ∃ tag ∈ tags, tag.isNamed name.asStr = true ∧ tag.value 1 = some groupId.text)
      (fun found tag next htag ih hnext groupId hnextId => ?_)
      (fun _ h => absurd h (by simp)) hfound groupId rfl
    split at hnext
    · next hname =>
      split at hnext
      · cases hnext
      · next value hpair =>
        obtain ⟨id, hid, hnext⟩ := Except.bind_eq_ok.mp hnext
        split at hnext
        · split at hnext
          · cases hnext
          · cases hnext
            exact ih groupId hnextId
        · cases hnext
          cases hnextId
          have hvalue : tag.value 1 = some value :=
            GroupEventTag.value_of_indexedPair hpair
          rw [(GroupId.newWithMaxBytes_eq_ok.mp hid).1]
          exact ⟨tag, htag, hname, hvalue⟩
    · cases hnext
      exact ih groupId hnextId

/-- **The snapshot of what an event says is no longer than the event's own tags.** -/
theorem size_uncheckedMetadataTags_le {codec : TagCodec} {event : PocketEvent}
    {limits : GroupLimitsConfig} {eventClass : GroupEventClass} {groupId : GroupId}
    {metadata : GroupMetadata} (hclass : classifyGroupEvent event limits = .ok eventClass)
    (hgroup : eventClass.groupId = some groupId)
    (hmetadata : parseGroupMetadata event limits = .ok metadata) :
    codec.size (toTagValues (uncheckedMetadataTags groupId metadata)) ≤ codec.size event.tags := by
  obtain ⟨builder, hbuilder, hfinish⟩ := Except.bind_eq_ok.mp hmetadata
  cases hfinish
  obtain ⟨tags, htags, hfold⟩ := visitTags_eq_ok.mp hbuilder
  obtain ⟨name, groupTag, hextract, rfl⟩ := extractGroupTag_of_class hclass hgroup
  obtain ⟨tag, hmem, hname, hvalue⟩ := extractGroupTag_mem htags hextract
  obtain ⟨rest, hrest⟩ := GroupEventTag.values_of_isNamed_value hname hvalue
  have hidentity : tag.firstValue.any isGroupIdentityTagName = true := by
    have hfirst : tag.firstValue = some name.asStr.toList := beq_iff_eq.mp hname
    rw [hfirst]
    cases name <;> decide
  have hgroupTag : codec.textTagSize ["d".toList, groupTag.groupId.text] ≤
      codec.textTagSize tag.values := by
    have hletter : Text.byteLen name.asStr.toList = Text.byteLen "d".toList := by
      cases name <;> decide
    have hsame : codec.textTagSize ["d".toList, groupTag.groupId.text] =
        codec.textTagSize [name.asStr.toList, groupTag.groupId.text] := by
      simp only [TagCodec.textTagSize, List.map_cons, hletter]
    rw [hsame, hrest]
    exact codec.textTagSize_prefix_le _ _
  have hread := @MetadataBuilder.size_foldlM_le codec _ _ _ _ hfold
  have hempty : MetadataBuilder.size codec {} = 0 := rfl
  have hall := @textTagsSize_identity_le codec _ _ hmem hidentity
  rw [htags.tags_eq, TagCodec.size_toTagValues, TagCodec.size_toTagValues,
    textTagsSize_uncheckedMetadataTags]
  omega

end Tangle
