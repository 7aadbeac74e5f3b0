import Tangle.Protocol.JsonText
import Tangle.Runtime.StoredEvents

/-!
# Metadata snapshots read back

The tags of a metadata snapshot and the reader of metadata are written apart. Metadata that was
read under some limits is within them (`within_of_parse`), and from metadata within the limits the
snapshot's tags read back as that metadata (`parse_uncheckedMetadataTags`), whatever the group. The
snapshot is of the group when the group's id is as short as the limits ask, and taking it leaves
every group's metadata as it was (`metadataSnapshot_faithful`).
-/

namespace Tangle

open GroupEventView

/-! ## Numbers -/

namespace Text

/-- A digit is read as the number it stands for. -/
theorem digit?_of_isDigit {c : Char} (h : c.isDigit = true) :
    digit? c = some (c.toNat - '0'.toNat) := by
  rw [Char.isDigit, Bool.and_eq_true, decide_eq_true_eq, decide_eq_true_eq] at h
  exact if_pos h

/-- The number read so far is no larger than the one read in the end. -/
theorem le_ofDigitChars {value : Text} {acc : Nat} : acc ≤ Nat.ofDigitChars 10 value acc := by
  induction value generalizing acc with
  | nil => exact le_refl _
  | cons c rest ih =>
    rw [Nat.ofDigitChars_cons]
    have hrest := @ih (10 * acc + (c.toNat - '0'.toNat))
    omega

/-- Digits are read as the number they spell, when it is below the bound. -/
theorem digits?_eq_ofDigitChars {bound acc : Nat} {value : Text}
    (hdigits : ∀ c ∈ value, c.isDigit = true) (hlt : Nat.ofDigitChars 10 value acc < bound) :
    digits? bound value acc = some (Nat.ofDigitChars 10 value acc) := by
  induction value generalizing acc with
  | nil => rfl
  | cons c rest ih =>
    rw [Nat.ofDigitChars_cons] at hlt ⊢
    have hfirst := digit?_of_isDigit (hdigits c (List.mem_cons_self ..))
    have hcomm : acc * 10 + (c.toNat - '0'.toNat) = 10 * acc + (c.toNat - '0'.toNat) := by omega
    have hbelow : 10 * acc + (c.toNat - '0'.toNat) < bound := lt_of_le_of_lt le_ofDigitChars hlt
    rw [digits?, hfirst, Option.bind_eq_bind, Option.bind_some, hcomm, if_pos hbelow]
    exact ih (fun d hd => hdigits d (List.mem_cons_of_mem _ hd)) hlt

/-- A number of 64 bits is read back from its digits. -/
theorem parseU64_ofNat {n : Nat} (h : n < 2 ^ 64) : parseU64 (ofNat n) = some n := by
  have hdigits : ∀ c ∈ ofNat n, c.isDigit = true :=
    fun c hc => Nat.isDigit_of_mem_toDigits (by decide) (by decide) hc
  have hspelled : Nat.ofDigitChars 10 (ofNat n) 0 = n := Nat.ofDigitChars_ten_toDigits
  obtain ⟨c, rest, heq, hdigit⟩ := JsonText.head_ofNat n
  have hplus : c ≠ '+' := by
    intro hc
    subst hc
    cases hdigit
  have hread : parseU64 (ofNat n) = digits? (2 ^ 64) (ofNat n) 0 := by
    rw [heq]
    unfold parseU64
    split
    · next hnil => cases hnil
    · next hone => cases hone; exact absurd rfl hplus
    · next hcons => cases hcons; exact absurd rfl hplus
    · rfl
  rw [hread, digits?_eq_ofDigitChars hdigits (hspelled.symm ▸ h), hspelled]

end Text

/-- A kind is read back from its number. -/
theorem parseSupportedKind_ofNat (kind : Kind) :
    parseSupportedKind (Text.ofNat kind.value) = .ok kind := by
  have hread : (Text.ofNat kind.value).parseU64 = some kind.value :=
    Text.parseU64_ofNat (lt_trans kind.lt (by decide))
  unfold parseSupportedKind
  rw [hread]
  exact Except.mapError_eq_ok.mpr (Kind.new_eq_ok.mpr rfl)

/-! ## Metadata within the limits -/

/-- A text that is there is within its bound. -/
def TextWithin (maxBytes : Nat) (value : Option Text) : Prop :=
  ∀ text, value = some text → text.byteLen ≤ maxBytes

/-- A list of kinds is not empty and within the bound. -/
def SupportedKinds.Within (limits : GroupLimitsConfig) (supportedKinds : SupportedKinds) : Prop :=
  ∀ kinds, supportedKinds = .only kinds →
    kinds.toList ≠ [] ∧ kinds.toList.length ≤ limits.maxSupportedKinds.toNat

/-- Metadata that an event can say. -/
structure GroupMetadata.Within (limits : GroupLimitsConfig) (metadata : GroupMetadata) : Prop where
  name : TextWithin maxMetadataNameBytes metadata.name
  picture : TextWithin maxMetadataPictureBytes metadata.picture
  about : TextWithin maxMetadataAboutBytes metadata.about
  kinds : metadata.supportedKinds.Within limits

section
variable {limits : GroupLimitsConfig} {builder next : MetadataBuilder} {tag : GroupEventTag}
  {metadata : GroupMetadata} {groupId : GroupId}

/-- A text that is read is within its bound. -/
theorem textWithin_of_parse {field : String} {maxBytes : Nat} {value : Option Text}
    (h : parseTextTag tag field maxBytes = .ok value) : TextWithin maxBytes value := by
  unfold parseTextTag at h
  split at h
  · cases h
    exact fun _ htext => by cases htext
  · next text _ =>
    split at h
    · cases h
    · next hlen =>
      cases h
      intro read hread
      cases hread
      exact not_lt.mp hlen

/-- Reading kinds one after another keeps the ones there are and adds one for each text at most. -/
theorem length_of_readKinds {values : List Text} {start kinds : BTreeSet Kind}
    (h : values.foldlM (fun (kinds : BTreeSet Kind) value => do
      return kinds.insert (← parseSupportedKind value)) start = .ok kinds) :
    (∀ kind ∈ start, kind ∈ kinds) ∧ (values ≠ [] → ∃ kind, kind ∈ kinds) ∧
      kinds.size ≤ start.size + values.length := by
  induction values generalizing start with
  | nil =>
    cases h
    exact ⟨fun _ hkind => hkind, fun hne => absurd rfl hne, le_refl _⟩
  | cons value rest ih =>
    obtain ⟨added, hadded, hrest⟩ := Except.foldlM_cons_ok.mp h
    obtain ⟨kind, _, hadded⟩ := Except.bind_eq_ok.mp hadded
    cases hadded
    obtain ⟨hkept, _, hsize⟩ := ih hrest
    have hmem : kind ∈ start.insert kind := BTreeSet.mem_insert.mpr (.inl rfl)
    have hone : (start.insert kind).size ≤ start.size + 1 := Std.ExtTreeSet.size_insert_le
    refine ⟨fun old hold => hkept old (BTreeSet.mem_insert.mpr (.inr hold)),
      fun _ => ⟨kind, hkept kind hmem⟩, ?_⟩
    rw [List.length_cons]
    omega

/-- The kinds parsed from a tag are within the limits. -/
theorem kindsWithin_of_parse {kinds : SupportedKinds}
    (h : parseSupportedKindsTag tag limits = .ok kinds) : kinds.Within limits := by
  unfold parseSupportedKindsTag at h
  dsimp only at h
  split at h
  · cases h
    exact fun _ honly => by cases honly
  next hne =>
  split at h
  · cases h
  next hlen =>
  obtain ⟨set, hset, h⟩ := Except.bind_eq_ok.mp h
  cases h
  obtain ⟨_, hsome, hsize⟩ := length_of_readKinds hset
  obtain ⟨kind, hkind⟩ := hsome (fun hnil => hne (List.isEmpty_iff.mpr hnil))
  intro only honly
  cases honly
  refine ⟨List.ne_nil_of_mem (BTreeSet.mem_toList.mpr hkind), ?_⟩
  have hempty : (∅ : BTreeSet Kind).size = 0 := rfl
  rw [Std.ExtTreeSet.length_toList]
  omega

/-- Reading a tag keeps the metadata within the limits. -/
theorem MetadataBuilder.within_visit (h : builder.visit limits tag = .ok next)
    (hwithin : builder.finish.Within limits) : next.finish.Within limits := by
  obtain ⟨hname, hpicture, habout, hkinds⟩ := hwithin
  cases MetadataBuilder.reads_of_visit h with
  | name _ hvalue => exact ⟨textWithin_of_parse hvalue, hpicture, habout, hkinds⟩
  | picture _ hvalue => exact ⟨hname, textWithin_of_parse hvalue, habout, hkinds⟩
  | about _ hvalue => exact ⟨hname, hpicture, textWithin_of_parse hvalue, hkinds⟩
  | isPrivate => exact ⟨hname, hpicture, habout, hkinds⟩
  | restricted => exact ⟨hname, hpicture, habout, hkinds⟩
  | hidden => exact ⟨hname, hpicture, habout, hkinds⟩
  | closed => exact ⟨hname, hpicture, habout, hkinds⟩
  | supportedKinds _ _ hread => exact ⟨hname, hpicture, habout, kindsWithin_of_parse hread⟩
  | other => exact ⟨hname, hpicture, habout, hkinds⟩

/-- Metadata that was read is within the limits it was read under. -/
theorem within_of_parse {event : PocketEvent} (h : parseGroupMetadata event limits = .ok metadata) :
    metadata.Within limits := by
  obtain ⟨builder, hbuilder, hfinish⟩ := Except.bind_eq_ok.mp h
  cases hfinish
  obtain ⟨tags, _, hfold⟩ := visitTags_eq_ok.mp hbuilder
  have hempty : (MetadataBuilder.finish {}).Within limits := by
    refine ⟨?_, ?_, ?_, ?_⟩
    · exact fun _ htext => by cases htext
    · exact fun _ htext => by cases htext
    · exact fun _ htext => by cases htext
    · exact fun _ honly => by cases honly
  exact Except.foldlM_invariant (fun builder : MetadataBuilder => builder.finish.Within limits)
    (fun _ _ _ _ hwithin hvisit => MetadataBuilder.within_visit hvisit hwithin) hempty hfold

/-! ## Reading a snapshot's tags -/

/-- What is read from tags of texts. -/
def MetadataBuilder.readTexts (limits : GroupLimitsConfig) (builder : MetadataBuilder)
    (tags : List (List Text)) : Except GroupError MetadataBuilder :=
  (tags.map GroupEventTag.mk).foldlM (MetadataBuilder.visit limits) builder

/-- Tags read with more behind them are read first. -/
theorem MetadataBuilder.readTexts_append {tags rest : List (List Text)}
    (h : builder.readTexts limits tags = .ok next) :
    builder.readTexts limits (tags ++ rest) = next.readTexts limits rest := by
  unfold readTexts at h ⊢
  rw [List.map_append, List.foldlM_append, h]
  rfl

/-- A text within its bound is read back from its tag. -/
theorem parseTextTag_texts {name field : String} {maxBytes : Nat} {text : Text}
    (h : TextWithin maxBytes (some text)) :
    parseTextTag ⟨[name.toList, text]⟩ field maxBytes = .ok (some text) := by
  have hlen : ¬ text.byteLen > maxBytes := not_lt.mpr (h text rfl)
  change (if text.byteLen > maxBytes then _ else _) = _
  rw [if_neg hlen]

/-- A tag has the name that its first text spells. -/
theorem isNamed_texts (name other : String) (values : List Text) :
    (GroupEventTag.mk (name.toList :: values)).isNamed other =
      decide (name.toList = other.toList) := by
  unfold GroupEventTag.isNamed GroupEventTag.firstValue GroupEventTag.value
  rw [List.getElem?_cons_zero]
  exact Bool.eq_iff_iff.mpr (by simp)

/-- The first tag of a snapshot says nothing about metadata. -/
theorem MetadataBuilder.visit_groupTag :
    builder.visit limits ⟨["d".toList, groupId.text]⟩ = .ok builder := by
  unfold visit
  iterate 8 rw [isNamed_texts, if_neg (by decide)]

/-- The name's tag sets the name. -/
theorem MetadataBuilder.readTexts_name {value : Option Text}
    (h : TextWithin maxMetadataNameBytes value) :
    builder.readTexts limits (metadataTextTag "name" value) =
      .ok { builder with name := value.or builder.name } := by
  cases value with
  | none => rfl
  | some text =>
    change builder.visit limits ⟨["name".toList, text]⟩ >>= pure = _
    unfold visit
    rw [isNamed_texts, if_pos (by decide), parseTextTag_texts h]
    rfl

/-- The picture's tag sets the picture. -/
theorem MetadataBuilder.readTexts_picture {value : Option Text}
    (h : TextWithin maxMetadataPictureBytes value) :
    builder.readTexts limits (metadataTextTag "picture" value) =
      .ok { builder with picture := value.or builder.picture } := by
  cases value with
  | none => rfl
  | some text =>
    change builder.visit limits ⟨["picture".toList, text]⟩ >>= pure = _
    unfold visit
    rw [isNamed_texts, if_neg (by decide), isNamed_texts, if_pos (by decide),
      parseTextTag_texts h]
    rfl

/-- The description's tag sets the description. -/
theorem MetadataBuilder.readTexts_about {value : Option Text}
    (h : TextWithin maxMetadataAboutBytes value) :
    builder.readTexts limits (metadataTextTag "about" value) =
      .ok { builder with about := value.or builder.about } := by
  cases value with
  | none => rfl
  | some text =>
    change builder.visit limits ⟨["about".toList, text]⟩ >>= pure = _
    unfold visit
    iterate 2 rw [isNamed_texts, if_neg (by decide)]
    rw [isNamed_texts, if_pos (by decide), parseTextTag_texts h]
    rfl

/-- The `private` flag's tag sets that flag. -/
theorem MetadataBuilder.readTexts_private {flag : Bool} :
    builder.readTexts limits (metadataFlagTag "private" flag) =
      .ok { builder with isPrivate := flag || builder.isPrivate } := by
  cases flag with
  | false => rfl
  | true =>
    change builder.visit limits ⟨["private".toList]⟩ >>= pure = _
    unfold visit
    iterate 3 rw [isNamed_texts, if_neg (by decide)]
    rw [isNamed_texts, if_pos (by decide)]
    rfl

/-- The `restricted` flag's tag sets that flag. -/
theorem MetadataBuilder.readTexts_restricted {flag : Bool} :
    builder.readTexts limits (metadataFlagTag "restricted" flag) =
      .ok { builder with restricted := flag || builder.restricted } := by
  cases flag with
  | false => rfl
  | true =>
    change builder.visit limits ⟨["restricted".toList]⟩ >>= pure = _
    unfold visit
    iterate 4 rw [isNamed_texts, if_neg (by decide)]
    rw [isNamed_texts, if_pos (by decide)]
    rfl

/-- The `hidden` flag's tag sets that flag. -/
theorem MetadataBuilder.readTexts_hidden {flag : Bool} :
    builder.readTexts limits (metadataFlagTag "hidden" flag) =
      .ok { builder with hidden := flag || builder.hidden } := by
  cases flag with
  | false => rfl
  | true =>
    change builder.visit limits ⟨["hidden".toList]⟩ >>= pure = _
    unfold visit
    iterate 5 rw [isNamed_texts, if_neg (by decide)]
    rw [isNamed_texts, if_pos (by decide)]
    rfl

/-- The `closed` flag's tag sets that flag. -/
theorem MetadataBuilder.readTexts_closed {flag : Bool} :
    builder.readTexts limits (metadataFlagTag "closed" flag) =
      .ok { builder with closed := flag || builder.closed } := by
  cases flag with
  | false => rfl
  | true =>
    change builder.visit limits ⟨["closed".toList]⟩ >>= pure = _
    unfold visit
    iterate 6 rw [isNamed_texts, if_neg (by decide)]
    rw [isNamed_texts, if_pos (by decide)]
    rfl

/-- The kinds of a set are read back as the set, in whatever order they are spelled. -/
theorem readKinds_toList (kinds : BTreeSet Kind) :
    ((kinds.toList.map fun kind => Text.ofNat kind.value).foldlM
      (fun (kinds : BTreeSet Kind) value => do
        return kinds.insert (← parseSupportedKind value)) ∅ : Except GroupError _) = .ok kinds := by
  have hread : ∀ (list : List Kind) (start : BTreeSet Kind), ∃ read : BTreeSet Kind,
      ((list.map fun kind => Text.ofNat kind.value).foldlM
        (fun (kinds : BTreeSet Kind) value => do
          return kinds.insert (← parseSupportedKind value)) start : Except GroupError _) =
        .ok read ∧ ∀ kind, kind ∈ read ↔ kind ∈ start ∨ kind ∈ list := by
    intro list
    induction list with
    | nil => exact fun start => ⟨start, rfl, fun kind => by simp⟩
    | cons first rest ih =>
      intro start
      obtain ⟨read, hread, hmem⟩ := ih (start.insert first)
      refine ⟨read, ?_, fun kind => ?_⟩
      · rw [List.map_cons, List.foldlM_cons, parseSupportedKind_ofNat]
        exact hread
      · rw [hmem, BTreeSet.mem_insert, List.mem_cons, eq_comm, or_assoc, or_left_comm]
  obtain ⟨read, hread, hmem⟩ := hread kinds.toList ∅
  have hsame : read = kinds := BTreeSet.ext fun kind => by
    rw [hmem, BTreeSet.mem_toList, or_iff_right BTreeSet.not_mem_empty]
  rw [hread, hsame]

/-- The tag of a set of kinds is parsed into that set. -/
theorem parseSupportedKindsTag_toList {kinds : BTreeSet Kind}
    (h : (SupportedKinds.only kinds).Within limits) :
    parseSupportedKindsTag ⟨"supported_kinds".toList :: kinds.toList.map fun kind =>
      Text.ofNat kind.value⟩ limits = .ok (.only kinds) := by
  obtain ⟨hne, hlen⟩ := h kinds rfl
  unfold parseSupportedKindsTag
  dsimp only
  rw [List.drop_one, List.tail_cons, if_neg, if_neg, readKinds_toList]
  · rfl
  · rw [List.length_map]
    exact not_lt.mpr hlen
  · rw [List.isEmpty_iff, List.map_eq_nil_iff]
    exact hne

/-- The kinds' tag sets the kinds. -/
theorem MetadataBuilder.readTexts_supportedKinds {kinds : SupportedKinds}
    (h : kinds.Within limits) (hnone : builder.supportedKinds = none) :
    ∃ read, builder.readTexts limits (supportedKindsTag kinds) = .ok read ∧
      read.finish = { builder.finish with supportedKinds := kinds } := by
  have hvisit : ∀ {values : List Text} {read : SupportedKinds},
      parseSupportedKindsTag ⟨"supported_kinds".toList :: values⟩ limits = .ok read →
      builder.readTexts limits ["supported_kinds".toList :: values] =
        .ok { builder with supportedKinds := some read } := by
    intro values read hread
    change builder.visit limits ⟨"supported_kinds".toList :: values⟩ >>= pure = _
    unfold visit
    iterate 7 rw [isNamed_texts, if_neg (by decide)]
    rw [isNamed_texts, if_pos (by decide), hnone, if_neg (by decide), hread]
    rfl
  cases kinds with
  | unspecifiedAll =>
    have hsame : builder.finish.supportedKinds = .unspecifiedAll := by
      rw [finish, hnone]
      rfl
    exact ⟨builder, rfl, by rw [← hsame]⟩
  | none => exact ⟨_, hvisit rfl, rfl⟩
  | only kinds => exact ⟨_, hvisit (parseSupportedKindsTag_toList h), rfl⟩

/-- A snapshot's tags are read as the metadata they were made from. -/
theorem readTexts_uncheckedMetadataTags (h : metadata.Within limits) :
    ∃ read, MetadataBuilder.readTexts limits {} (uncheckedMetadataTags groupId metadata) =
      .ok read ∧ read.finish = metadata := by
  have hgroup : MetadataBuilder.readTexts limits {} [["d".toList, groupId.text]] = .ok {} := by
    change MetadataBuilder.visit limits {} ⟨["d".toList, groupId.text]⟩ >>= pure = _
    rw [MetadataBuilder.visit_groupTag]
    rfl
  have hname := (MetadataBuilder.readTexts_append hgroup).trans
    (MetadataBuilder.readTexts_name h.name)
  rw [List.singleton_append] at hname
  have hpicture := (MetadataBuilder.readTexts_append hname).trans
    (MetadataBuilder.readTexts_picture h.picture)
  have habout := (MetadataBuilder.readTexts_append hpicture).trans
    (MetadataBuilder.readTexts_about h.about)
  have hprivate := (MetadataBuilder.readTexts_append habout).trans
    (@MetadataBuilder.readTexts_private _ _ metadata.isPrivate)
  have hrestricted := (MetadataBuilder.readTexts_append hprivate).trans
    (@MetadataBuilder.readTexts_restricted _ _ metadata.restricted)
  have hhidden := (MetadataBuilder.readTexts_append hrestricted).trans
    (@MetadataBuilder.readTexts_hidden _ _ metadata.hidden)
  have hclosed := (MetadataBuilder.readTexts_append hhidden).trans
    (@MetadataBuilder.readTexts_closed _ _ metadata.closed)
  change ∃ read, MetadataBuilder.readTexts limits {}
    (_ ++ supportedKindsTag metadata.supportedKinds) = .ok read ∧ _
  rw [MetadataBuilder.readTexts_append hclosed]
  refine (MetadataBuilder.readTexts_supportedKinds h.kinds rfl).imp fun read hread =>
    ⟨hread.1, hread.2.trans ?_⟩
  simp [MetadataBuilder.finish]

/-- **An event with a snapshot's tags says the metadata they were made from.** -/
theorem parse_uncheckedMetadataTags {event : PocketEvent} (h : metadata.Within limits)
    (htags : event.tags = toTagValues (uncheckedMetadataTags groupId metadata)) :
    parseGroupMetadata event limits = .ok metadata := by
  obtain ⟨read, hread, hfinish⟩ := @readTexts_uncheckedMetadataTags limits metadata groupId h
  have hvisit := visitTags_eq_ok.mpr ⟨_, Decodes.of_texts htags, hread⟩
  exact Except.bind_eq_ok.mpr ⟨read, hvisit, congrArg Except.ok hfinish⟩

/-- The kind of a metadata snapshot is one that only the relay generates. -/
theorem isRelayGeneratedKind_metadata {event : PocketEvent}
    (hkind : kindU32 event = kindGroupMetadata) :
    isRelayGeneratedKind (eventKind event) = true := by
  unfold isRelayGeneratedKind
  rw [eventKind_value, hkind]
  decide

/-- A metadata event with a snapshot's tags is a snapshot of the group, when the group's id is as
short as the limits ask. -/
theorem classify_uncheckedMetadataTags {event : PocketEvent}
    (hkind : kindU32 event = kindGroupMetadata)
    (htags : event.tags = toTagValues (uncheckedMetadataTags groupId metadata))
    (hlen : groupId.text.byteLen ≤ limits.maxGroupIdBytes.toNat) :
    classifyGroupEvent event limits =
      .ok (.relayGeneratedSnapshot (eventKind event) groupId) := by
  have hrequire := @requireGroupTag_of_head limits event groupId .d _ htags
    (namesGroup_uncheckedMetadataTags groupId metadata) rfl hlen
  unfold classifyGroupEvent
  rw [GroupEventView.kind_eq, Except.ok_bind,
    if_pos (isRelayGeneratedKind_metadata hkind), hrequire]
  rfl

/-! ## Taking a snapshot -/

/-- Taking a group's own metadata as a snapshot leaves every group's metadata as it was. -/
theorem metadata_of_snapshot {projection : GroupProjection} {group : GroupState}
    {item : CanonicalGroupEvent} {kind : Kind} (hgroup : projection.group groupId = some group)
    (id : GroupId) :
    (((ProjectionAction.metadataSnapshot groupId kind group.metadata).after item projection).group
        id).map GroupState.metadata = (projection.group id).map GroupState.metadata := by
  have hupdate : (group.updateMetadata group.metadata item.tuple).metadata = group.metadata := by
    unfold GroupState.updateMetadata
    split
    · rfl
    · rfl
  have hgroups : ((ProjectionAction.metadataSnapshot groupId kind group.metadata).after item
      projection).groups = projection.groups.insert groupId
        ((group.updateMetadata group.metadata item.tuple).setSnapshot kind item.event.id) := by
    rw [ProjectionAction.after, ProjectionAction.groupsAfter,
      show projection.groups[groupId]? = some group from hgroup]
  unfold GroupProjection.group at hgroup ⊢
  rw [hgroups, BTreeMap.getElem?_insert]
  split
  · next hid =>
    subst hid
    rw [hgroup]
    exact congrArg some hupdate
  · rfl

/-- An event that is taken as a snapshot with these tags is of a group with a short id. -/
theorem byteLen_of_apply {projection next : GroupProjection} {event : PocketEvent}
    {storeOffset : StoreOffset} {outcome : ProjectionApplyOutcome}
    (hkind : kindU32 event = kindGroupMetadata)
    (htags : event.tags = toTagValues (uncheckedMetadataTags groupId metadata))
    (h : projection.applyCanonicalEvent event storeOffset limits = .ok (outcome, next)) :
    groupId.text.byteLen ≤ limits.maxGroupIdBytes.toNat := by
  obtain ⟨eventClass, hclass, _⟩ := Except.bind_eq_ok.mp h
  have hgenerated := isRelayGeneratedKind_metadata hkind
  have hgroup : ∃ id, eventClass.groupId = some id := by
    have hsnapshot := hclass
    unfold classifyGroupEvent at hsnapshot
    rw [GroupEventView.kind_eq, Except.ok_bind, if_pos hgenerated] at hsnapshot
    obtain ⟨groupTag, _, hsnapshot⟩ := Except.bind_eq_ok.mp hsnapshot
    cases hsnapshot
    exact ⟨_, rfl⟩
  obtain ⟨id, hid⟩ := hgroup
  have hsame :=
    (namesGroup_uncheckedMetadataTags groupId metadata).groupId_of_class htags hclass hid
  rw [← hsame]
  exact byteLen_of_class hclass hid

/-- The event the relay signs for a group's metadata is a metadata event with a snapshot's tags. -/
theorem event_of_metadataSnapshot {pocket : PocketTypes} {codec : TagCodec}
    (lawful : pocket.Lawful codec) {group : GroupState} {secret : RelaySecret}
    {signer : RelaySigner} {generatedAt : UnixTimestamp} {payload : GroupOutboxPayload}
    {event : PocketEvent} (hsigner : RelaySigner.fromSecretHex pocket secret = .ok signer)
    (hpayload : GroupGeneratedEventBuilder.metadataSnapshotPayload pocket group generatedAt =
      .ok payload)
    (hsign : (GroupGeneratedEventBuilder.mk signer).signPayloadPocket pocket payload = .ok event) :
    kindU32 event = kindGroupMetadata ∧
      event.tags = toTagValues (uncheckedMetadataTags group.id group.metadata) := by
  obtain ⟨pubkey, hpubkey, hsigner⟩ := Except.bind_eq_ok.mp hsigner
  cases hsigner
  obtain ⟨tags, htags, hpayload⟩ := Except.bind_eq_ok.mp hpayload
  cases hpayload
  obtain ⟨_, _, htags⟩ := Except.bind_eq_ok.mp htags
  cases htags
  obtain ⟨hkind, _, _, hsigned⟩ := event_of_sign lawful hpubkey hsign
  exact ⟨hkind, hsigned⟩

/-- The first event makes a group of its own under the metadata that is read from it. -/
theorem parse_of_firstGroup {event : PocketEvent} {storeOffset : StoreOffset}
    {outcome : ProjectionApplyOutcome} {made : GroupProjection} {group : GroupState}
    (h : GroupProjection.new.applyCanonicalEvent event storeOffset limits = .ok (outcome, made))
    (hgroup : made.group groupId = some group) :
    group.id = groupId ∧ parseGroupMetadata event limits = .ok group.metadata := by
  have hitem : applyItem limits GroupProjection.new ⟨event, storeOffset⟩ = .ok made := by
    unfold applyItem
    rw [h]
    rfl
  obtain ⟨action, haction, _, rfl⟩ := applyItem_eq_ok.mp hitem
  rcases ProjectionAction.groupsAfter_cases hgroup with ⟨_, hbefore, _⟩ | ⟨hid, hmetadata⟩
  · exact absurd hbefore (by simp [GroupProjection.new])
  · exact ⟨hid, (ProjectionAction.groupMetadata_of_eventAction haction hmetadata).1⟩

/-- **Metadata snapshots are faithful.** What was read under some limits is read back from a
snapshot's tags under the same limits, whatever the group; a metadata event with these tags is of
the group when the group's id is as short as the limits ask. The event the relay signs for a group's
metadata is then taken, and an event of it that is taken changes no group's metadata. -/
theorem metadataSnapshot_faithful {pocket : PocketTypes} {codec : TagCodec}
    (lawful : pocket.Lawful codec) {source : PocketEvent}
    (hread : parseGroupMetadata source limits = .ok metadata) :
    (∀ (groupId : GroupId) (tags : List (List Text)) (event : PocketEvent),
      metadataTags pocket groupId metadata = .ok tags → event.tags = toTagValues tags →
      parseGroupMetadata event limits = .ok metadata ∧
        (kindU32 event = kindGroupMetadata →
          groupId.text.byteLen ≤ limits.maxGroupIdBytes.toNat →
          classifyGroupEvent event limits =
            .ok (.relayGeneratedSnapshot (eventKind event) groupId))) ∧
    ∀ (projection : GroupProjection) (group : GroupState) (secret : RelaySecret)
      (signer : RelaySigner) (generatedAt : UnixTimestamp) (payload : GroupOutboxPayload)
      (event : PocketEvent) (storeOffset : StoreOffset),
      projection.group group.id = some group → group.metadata = metadata →
      RelaySigner.fromSecretHex pocket secret = .ok signer →
      GroupGeneratedEventBuilder.metadataSnapshotPayload pocket group generatedAt = .ok payload →
      (GroupGeneratedEventBuilder.mk signer).signPayloadPocket pocket payload = .ok event →
      (group.id.text.byteLen ≤ limits.maxGroupIdBytes.toNat →
        (projection.applyCanonicalEvent event storeOffset limits).Succeeds) ∧
      ∀ outcome next, projection.applyCanonicalEvent event storeOffset limits = .ok
        (outcome, next) →
        ∀ id, (next.group id).map GroupState.metadata =
          (projection.group id).map GroupState.metadata := by
  have hwithin := within_of_parse hread
  refine ⟨fun groupId tags event hchecked htags => ?_,
    fun projection group secret signer generatedAt
    payload event storeOffset hgroup hmetadata hsigner hpayload hsign => ?_⟩
  · obtain ⟨_, _, hchecked⟩ := Except.bind_eq_ok.mp hchecked
    cases hchecked
    exact ⟨parse_uncheckedMetadataTags hwithin htags, fun hkind hlen =>
      classify_uncheckedMetadataTags hkind htags hlen⟩
  · subst hmetadata
    obtain ⟨hkind, htags⟩ := event_of_metadataSnapshot lawful hsigner hpayload hsign
    have hparse := parse_uncheckedMetadataTags hwithin htags
    have happly : group.id.text.byteLen ≤ limits.maxGroupIdBytes.toNat →
        Prod.snd <$> projection.applyCanonicalEvent event storeOffset limits =
          .ok ((ProjectionAction.metadataSnapshot group.id (eventKind event) group.metadata).after
            ⟨event, storeOffset⟩ projection) := by
      intro hlen
      have haction : eventAction event limits =
          .ok (.metadataSnapshot group.id (eventKind event) group.metadata) := by
        unfold eventAction
        rw [classify_uncheckedMetadataTags hkind htags hlen, Except.ok_bind, classAction,
          if_pos (by rw [eventKind_value, hkind]), hparse]
        rfl
      have hitem := @applyItem_eq projection ⟨event, storeOffset⟩ limits
      rw [haction] at hitem
      exact hitem
    refine ⟨fun hlen => Except.succeeds_map.mp ⟨_, happly hlen⟩, fun outcome next h id => ?_⟩
    have hlen := byteLen_of_apply hkind htags h
    have hnext := happly hlen
    rw [h] at hnext
    cases hnext
    exact metadata_of_snapshot hgroup id

end

namespace Sample

/-- Limits that take group ids of three bytes at most. -/
def shortIds : GroupLimitsConfig :=
  { GroupLimitsConfig.default with maxGroupIdBytes := 3 }

/-- An event that says a name and two kinds, and is private. -/
def describing : PocketEvent :=
  farmEvent owner 9007 5
    [["name", "Farm"], ["private"], ["supported_kinds", "11", "+9", "9"], ["name", ""]]

/-- Metadata with every text and every flag of it used. -/
def described : GroupMetadata where
  name := some []
  picture := none
  about := none
  isPrivate := true
  restricted := false
  hidden := false
  closed := false
  supportedKinds := .only (((∅ : BTreeSet Kind).insert ⟨11, by decide⟩).insert ⟨9, by decide⟩)

/-- A metadata event with the tags of a snapshot of `farm`. -/
def farmSnapshot (metadata : GroupMetadata) : PocketEvent :=
  let tags := uncheckedMetadataTags farm metadata
  .ofTexts (eventId 39000 6 tags) owner 39000 6 tags

/-- The group `farm` is made under a name, or given one, at time 10. -/
def named (kind : UInt16) (name : String) : PocketEvent :=
  farmEvent owner kind 10 [["name", name]]

/-- The secret key of the sample relay. -/
def sevens : RelaySecret :=
  ⟨List.replicate 64 '7', isHex64_sevens⟩

/-- What becomes of the group when its first snapshot is applied after its name was changed. -/
structure SetBack where
  made : GroupProjection
  group : GroupState
  snapshot : PocketEvent
  edited : GroupProjection
  after : GroupProjection

/-- The name of the group. -/
def nameIn (projection : GroupProjection) : Option Text :=
  (projection.group farm).bind fun group => group.metadata.name

/-- How a snapshot sets the metadata back: it is made of the group, the group is renamed, and then
the snapshot is applied. -/
def setBack : Except String SetBack := do
  let (_, made) ← (GroupProjection.new.applyCanonicalEvent (named 9007 "Farm") 8
    .default).mapError fun _ => "not made"
  let group ← Except.okOr (made.group farm) "no group"
  let signer ← RelaySigner.fromSecretHex pocket sevens
  let payload ← (GroupGeneratedEventBuilder.metadataSnapshotPayload pocket group 10).mapError
    fun _ => "no payload"
  let snapshot ← ((GroupGeneratedEventBuilder.mk signer).signPayloadPocket pocket
    payload).mapError fun _ => "not signed"
  let (_, edited) ← (made.applyCanonicalEvent (named 9002 "Barn") 160 .default).mapError
    fun _ => "not edited"
  let (_, after) ← (edited.applyCanonicalEvent snapshot 312 .default).mapError
    fun _ => "not taken"
  return ⟨made, group, snapshot, edited, after⟩

/-- The run comes to its end, with the name that was changed set back. -/
theorem setBack_runs : ∃ (made edited after : GroupProjection) (group : GroupState)
    (signer : RelaySigner) (payload : GroupOutboxPayload) (snapshot : PocketEvent)
    (first second third : ProjectionApplyOutcome),
    GroupProjection.new.applyCanonicalEvent (named 9007 "Farm") 8 .default = .ok (first, made) ∧
    made.group farm = some group ∧ RelaySigner.fromSecretHex pocket sevens = .ok signer ∧
    GroupGeneratedEventBuilder.metadataSnapshotPayload pocket group 10 = .ok payload ∧
    (GroupGeneratedEventBuilder.mk signer).signPayloadPocket pocket payload = .ok snapshot ∧
    made.applyCanonicalEvent (named 9002 "Barn") 160 .default = .ok (second, edited) ∧
    edited.applyCanonicalEvent snapshot 312 .default = .ok (third, after) ∧
    nameIn edited = some "Barn".toList ∧ nameIn after = some "Farm".toList := by
  have hrun : setBack.toOption.any (fun setBack => decide (
      nameIn setBack.edited = some "Barn".toList ∧
        nameIn setBack.after = some "Farm".toList)) = true := by
    decide +kernel
  obtain ⟨result, hresult, hchanged⟩ := (Option.any_eq_true _ _).mp hrun
  have hresult : setBack = .ok result := by
    cases hset : setBack with
    | error error =>
      rw [hset] at hresult
      cases hresult
    | ok other =>
      rw [hset] at hresult
      cases hresult
      rfl
  obtain ⟨⟨first, made⟩, hmade, h⟩ := Except.bind_eq_ok.mp hresult
  obtain ⟨group, hgroup, h⟩ := Except.bind_eq_ok.mp h
  obtain ⟨signer, hsigner, h⟩ := Except.bind_eq_ok.mp h
  obtain ⟨payload, hpayload, h⟩ := Except.bind_eq_ok.mp h
  obtain ⟨snapshot, hsnapshot, h⟩ := Except.bind_eq_ok.mp h
  obtain ⟨⟨second, edited⟩, hedited, h⟩ := Except.bind_eq_ok.mp h
  obtain ⟨⟨third, after⟩, hafter, h⟩ := Except.bind_eq_ok.mp h
  cases h
  exact ⟨made, edited, after, group, signer, payload, snapshot, first, second, third,
    Except.mapError_eq_ok.mp hmade, Except.okOr_eq_ok.mp hgroup, hsigner,
    Except.mapError_eq_ok.mp hpayload, Except.mapError_eq_ok.mp hsnapshot,
    Except.mapError_eq_ok.mp hedited, Except.mapError_eq_ok.mp hafter,
    of_decide_eq_true hchanged⟩

end Sample

open Sample in
/-- The theorem at a snapshot that describes its group in full, and at the one that the relay signs
for a group that was just made: it is taken, and no group's metadata changes. -/
theorem metadataSnapshot_faithful_describing :
    parseGroupMetadata (farmSnapshot described) .default = .ok described ∧
      classifyGroupEvent (farmSnapshot described) .default =
        .ok (.relayGeneratedSnapshot (kindOf 39000) farm) ∧
      ∃ (made next : GroupProjection) (group : GroupState) (signer : RelaySigner)
        (payload : GroupOutboxPayload) (snapshot : PocketEvent)
        (first outcome : ProjectionApplyOutcome),
        GroupProjection.new.applyCanonicalEvent (named 9007 "Farm") 8 .default =
          .ok (first, made) ∧
        made.group farm = some group ∧ RelaySigner.fromSecretHex pocket sevens = .ok signer ∧
        GroupGeneratedEventBuilder.metadataSnapshotPayload pocket group 10 = .ok payload ∧
        (GroupGeneratedEventBuilder.mk signer).signPayloadPocket pocket payload = .ok snapshot ∧
        made.applyCanonicalEvent snapshot 160 .default = .ok (outcome, next) ∧
        ∀ id, (next.group id).map GroupState.metadata =
          (made.group id).map GroupState.metadata := by
  have hread : parseGroupMetadata describing .default = .ok described := rfl
  have hchecked : metadataTags pocket farm described = .ok (uncheckedMetadataTags farm described) :=
    rfl
  obtain ⟨hparse, hclass⟩ := (metadataSnapshot_faithful pocket_lawful hread).1 farm _
    (farmSnapshot described) hchecked rfl
  obtain ⟨made, _, _, group, signer, payload, snapshot, first, _, _, hmade, hgroup, hsigner,
    hpayload, hsign, _⟩ := setBack_runs
  obtain ⟨hid, hmetadata⟩ := parse_of_firstGroup hmade hgroup
  obtain ⟨htaken, hkept⟩ := (metadataSnapshot_faithful pocket_lawful hmetadata).2 made group sevens
    signer 10 payload snapshot 160 (hid ▸ hgroup) rfl hsigner hpayload hsign
  obtain ⟨⟨outcome, next⟩, happlies⟩ := htaken (by rw [hid]; decide)
  exact ⟨hparse, hclass rfl (by decide), made, next, group, signer, payload, snapshot, first,
    outcome, hmade, hgroup, hsigner, hpayload, hsign, happlies, hkept outcome next happlies⟩

open Sample in
/-- A snapshot of a group whose id is longer than the limits ask is of no group; and a snapshot that
was made before the group's name was changed, within the same second, sets the name back when it is
applied afterwards. -/
theorem metadataSnapshot_not_always_faithful :
    (¬ ∀ (limits : GroupLimitsConfig) (source : PocketEvent) (metadata : GroupMetadata)
      (groupId : GroupId) (tags : List (List Text)) (event : PocketEvent),
      parseGroupMetadata source limits = .ok metadata →
      metadataTags pocket groupId metadata = .ok tags → event.tags = toTagValues tags →
      kindU32 event = kindGroupMetadata →
      ∃ eventClass, classifyGroupEvent event limits = .ok eventClass ∧
        eventClass.groupId = some groupId) ∧
    ∃ (made edited after : GroupProjection) (group : GroupState) (signer : RelaySigner)
      (payload : GroupOutboxPayload) (snapshot : PocketEvent)
      (first second third : ProjectionApplyOutcome),
      GroupProjection.new.applyCanonicalEvent (named 9007 "Farm") 8 .default = .ok (first, made) ∧
      made.group farm = some group ∧ RelaySigner.fromSecretHex pocket sevens = .ok signer ∧
      GroupGeneratedEventBuilder.metadataSnapshotPayload pocket group 10 = .ok payload ∧
      (GroupGeneratedEventBuilder.mk signer).signPayloadPocket pocket payload = .ok snapshot ∧
      made.applyCanonicalEvent (named 9002 "Barn") 160 .default = .ok (second, edited) ∧
      edited.applyCanonicalEvent snapshot 312 .default = .ok (third, after) ∧
      nameIn edited = some "Barn".toList ∧ nameIn after = some "Farm".toList := by
  constructor
  · intro h
    obtain ⟨eventClass, hclass, _⟩ := h shortIds describing described farm _
      (farmSnapshot described) rfl rfl rfl rfl
    have herror : ¬ (classifyGroupEvent (farmSnapshot described) shortIds).Succeeds := by decide
    exact herror ⟨eventClass, hclass⟩
  · exact setBack_runs

end Tangle
