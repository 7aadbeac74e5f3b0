import Tangle.Lib.Ordered
import Tangle.Groups.EventView
import Tangle.Groups.Ids

/-!
# Group metadata

The metadata of a group is read from the tags of one event: texts with a bound of bytes each, four
flags, and the kinds the group accepts. Later tags of a name replace earlier ones, except that two
`supported_kinds` tags are an error.
-/

namespace Tangle

def maxMetadataNameBytes : Nat := 128
def maxMetadataPictureBytes : Nat := 2048
def maxMetadataAboutBytes : Nat := 4096

/-- The kinds of normal events a group accepts. -/
inductive SupportedKinds where
  | unspecifiedAll
  | none
  | only (kinds : BTreeSet Kind)

/-- What a group says about itself. -/
structure GroupMetadata where
  name : Option Text
  picture : Option Text
  about : Option Text
  isPrivate : Bool
  restricted : Bool
  hidden : Bool
  closed : Bool
  supportedKinds : SupportedKinds

/-- `GroupMetadata::empty`: no text, no flag, and nothing said of the kinds. -/
def GroupMetadata.empty : GroupMetadata :=
  ⟨none, none, none, false, false, false, false, .unspecifiedAll⟩

/-- The metadata as far as it has been read. -/
structure MetadataBuilder where
  name : Option Text := none
  picture : Option Text := none
  about : Option Text := none
  isPrivate : Bool := false
  restricted : Bool := false
  hidden : Bool := false
  closed : Bool := false
  supportedKinds : Option SupportedKinds := none

/-- `parse_text_tag`: the tag's value, none where it has none, an error where it is too long. -/
def parseTextTag (tag : GroupEventTag) (field : String) (maxBytes : Nat) :
    Except GroupError (Option Text) :=
  match tag.value 1 with
  | none => .ok none
  | some value =>
    if value.byteLen > maxBytes then
      .error (.invalid .metadataTooLarge s!"metadata {field} must be at most {maxBytes} bytes")
    else
      .ok (some value)

/-- One value of a `supported_kinds` tag. -/
def parseSupportedKind (value : Text) : Except GroupError Kind :=
  match value.parseU64 with
  | none =>
    .error (.invalid .unsupportedGroupKind "supported_kinds values must be unsigned integers")
  | some raw =>
    (Kind.new raw).mapError fun reason =>
      .invalid .unsupportedGroupKind s!"supported_kinds value is invalid: {reason}"

/-- `parse_supported_kinds_tag`: each value is a kind, and there are no more of them than the limits
allow. -/
def parseSupportedKindsTag (tag : GroupEventTag) (limits : GroupLimitsConfig) :
    Except GroupError SupportedKinds :=
  let values := tag.values.drop 1
  if values.isEmpty then
    .ok .none
  else
    let max := limits.maxSupportedKinds.toNat
    if values.length > max then
      .error (.invalid .tooManySupportedKinds
        s!"supported_kinds has {values.length} values, maximum is {max}")
    else do
      let kinds ← values.foldlM (fun (kinds : BTreeSet Kind) value => do
        return kinds.insert (← parseSupportedKind value)) ∅
      return .only kinds

/-- Reads one tag into the builder. -/
def MetadataBuilder.visit (limits : GroupLimitsConfig) (builder : MetadataBuilder)
    (tag : GroupEventTag) : Except GroupError MetadataBuilder :=
  if tag.isNamed "name" then do
    return { builder with name := ← parseTextTag tag "name" maxMetadataNameBytes }
  else if tag.isNamed "picture" then do
    return { builder with picture := ← parseTextTag tag "picture" maxMetadataPictureBytes }
  else if tag.isNamed "about" then do
    return { builder with about := ← parseTextTag tag "about" maxMetadataAboutBytes }
  else if tag.isNamed "private" then
    .ok { builder with isPrivate := true }
  else if tag.isNamed "restricted" then
    .ok { builder with restricted := true }
  else if tag.isNamed "hidden" then
    .ok { builder with hidden := true }
  else if tag.isNamed "closed" then
    .ok { builder with closed := true }
  else if tag.isNamed "supported_kinds" then
    if builder.supportedKinds.isSome then
      .error (.invalid .tooManySupportedKinds
        "metadata must contain at most one supported_kinds tag")
    else do
      return { builder with supportedKinds := some (← parseSupportedKindsTag tag limits) }
  else
    .ok builder

/-- What the tags have said, with the defaults where they have said nothing. -/
def MetadataBuilder.finish (builder : MetadataBuilder) : GroupMetadata where
  name := builder.name
  picture := builder.picture
  about := builder.about
  isPrivate := builder.isPrivate
  restricted := builder.restricted
  hidden := builder.hidden
  closed := builder.closed
  supportedKinds := builder.supportedKinds.getD .unspecifiedAll

/-- `parse_group_metadata`: the tags are visited in order, and later ones take the place of earlier
ones. -/
def parseGroupMetadata (event : PocketEvent) (limits : GroupLimitsConfig) :
    Except GroupError GroupMetadata := do
  let builder ← GroupEventView.visitTags event (MetadataBuilder.visit limits) {}
  return builder.finish

/-! ## What can be read -/

/-- What reading a tag does to a builder. -/
inductive MetadataBuilder.Reads (limits : GroupLimitsConfig) (builder : MetadataBuilder)
    (tag : GroupEventTag) : MetadataBuilder → Prop
  | name {value} : tag.isNamed "name" = true →
      parseTextTag tag "name" maxMetadataNameBytes = .ok value →
      Reads limits builder tag { builder with name := value }
  | picture {value} : tag.isNamed "picture" = true →
      parseTextTag tag "picture" maxMetadataPictureBytes = .ok value →
      Reads limits builder tag { builder with picture := value }
  | about {value} : tag.isNamed "about" = true →
      parseTextTag tag "about" maxMetadataAboutBytes = .ok value →
      Reads limits builder tag { builder with about := value }
  | isPrivate : tag.isNamed "private" = true →
      Reads limits builder tag { builder with isPrivate := true }
  | restricted : tag.isNamed "restricted" = true →
      Reads limits builder tag { builder with restricted := true }
  | hidden : tag.isNamed "hidden" = true → Reads limits builder tag { builder with hidden := true }
  | closed : tag.isNamed "closed" = true → Reads limits builder tag { builder with closed := true }
  | supportedKinds {kinds} : tag.isNamed "supported_kinds" = true →
      builder.supportedKinds = none → parseSupportedKindsTag tag limits = .ok kinds →
      Reads limits builder tag { builder with supportedKinds := some kinds }
  | other : tag.isNamed "supported_kinds" = false → Reads limits builder tag builder

/-- A tag that is read is read by one of the rules. -/
theorem MetadataBuilder.reads_of_visit {limits : GroupLimitsConfig}
    {builder next : MetadataBuilder} {tag : GroupEventTag}
    (h : builder.visit limits tag = .ok next) : builder.Reads limits tag next := by
  unfold MetadataBuilder.visit at h
  split at h
  · next htag =>
    obtain ⟨value, hvalue, h⟩ := Except.bind_eq_ok.mp h
    cases h
    exact .name htag hvalue
  split at h
  · next htag =>
    obtain ⟨value, hvalue, h⟩ := Except.bind_eq_ok.mp h
    cases h
    exact .picture htag hvalue
  split at h
  · next htag =>
    obtain ⟨value, hvalue, h⟩ := Except.bind_eq_ok.mp h
    cases h
    exact .about htag hvalue
  split at h
  · next htag => cases h; exact .isPrivate htag
  split at h
  · next htag => cases h; exact .restricted htag
  split at h
  · next htag => cases h; exact .hidden htag
  split at h
  · next htag => cases h; exact .closed htag
  split at h
  · next htag =>
    split at h
    · cases h
    · next hnone =>
      obtain ⟨kinds, hkinds, h⟩ := Except.bind_eq_ok.mp h
      cases h
      exact .supportedKinds htag (Option.not_isSome_iff_eq_none.mp hnone) hkinds
  · next htag =>
    cases h
    exact .other (Bool.eq_false_iff.mpr htag)

/-- A text field within its bound. -/
def TextTagReadable (tag : GroupEventTag) (name : String) (maxBytes : Nat) : Prop :=
  tag.isNamed name = true → ∀ value, tag.value 1 = some value → value.byteLen ≤ maxBytes

/-- A list of kinds within its bound, each a number of 32 bits. -/
def KindsTagReadable (limits : GroupLimitsConfig) (tag : GroupEventTag) : Prop :=
  tag.isNamed "supported_kinds" = true →
    (tag.values.drop 1).length ≤ limits.maxSupportedKinds.toNat ∧
      ∀ value ∈ tag.values.drop 1, ∃ n, value.parseU64 = some n ∧ n < 2 ^ 32

/-- A tag within the bounds of metadata. -/
structure MetadataTagReadable (limits : GroupLimitsConfig) (tag : GroupEventTag) : Prop where
  name : TextTagReadable tag "name" maxMetadataNameBytes
  picture : TextTagReadable tag "picture" maxMetadataPictureBytes
  about : TextTagReadable tag "about" maxMetadataAboutBytes
  kinds : KindsTagReadable limits tag

/-- Tags that metadata can be read from: each within its bounds, and one list of kinds at most. -/
structure MetadataReadable (limits : GroupLimitsConfig) (tags : List GroupEventTag) : Prop where
  each : ∀ tag ∈ tags, MetadataTagReadable limits tag
  oneKinds : tags.countP (·.isNamed "supported_kinds") ≤ 1

/-- A text tag is parsed exactly when its value, if it has one, is short enough. -/
theorem parseTextTag_succeeds_iff {tag : GroupEventTag} {name : String} {maxBytes : Nat}
    (hname : tag.isNamed name = true) :
    (parseTextTag tag name maxBytes).Succeeds ↔ TextTagReadable tag name maxBytes := by
  unfold parseTextTag TextTagReadable
  cases hvalue : tag.value 1 with
  | none => simp
  | some value =>
    by_cases hlen : value.byteLen > maxBytes
    · simp [hlen, hname]
    · simp [hlen, not_lt.mp hlen]

/-- A kind is parsed exactly when it is a number of thirty-two bits, as Rust reads one. -/
theorem parseSupportedKind_succeeds_iff {value : Text} :
    (parseSupportedKind value).Succeeds ↔ ∃ n, value.parseU64 = some n ∧ n < 2 ^ 32 := by
  unfold parseSupportedKind
  cases value.parseU64 with
  | none => simp
  | some raw =>
    simp only [Except.succeeds_mapError, Option.some.injEq, exists_eq_left']
    unfold Kind.new
    split
    · next hlt => exact ⟨fun _ => hlt, fun _ => ⟨_, rfl⟩⟩
    · next hge => exact ⟨fun h => (nomatch h), fun h => absurd h hge⟩

/-- A tag of kinds is parsed exactly when each of them is, and there are not too many. -/
theorem parseSupportedKindsTag_succeeds_iff {limits : GroupLimitsConfig} {tag : GroupEventTag}
    (hname : tag.isNamed "supported_kinds" = true) :
    (parseSupportedKindsTag tag limits).Succeeds ↔ KindsTagReadable limits tag := by
  unfold parseSupportedKindsTag KindsTagReadable
  generalize tag.values.drop 1 = values
  have hfold : ∀ {values : List Text} {start : BTreeSet Kind},
      (values.foldlM (fun (kinds : BTreeSet Kind) value => do
        return kinds.insert (← parseSupportedKind value)) start : Except GroupError _).Succeeds ↔
      ∀ value ∈ values, ∃ n, value.parseU64 = some n ∧ n < 2 ^ 32 := by
    intro values
    induction values with
    | nil => exact fun {start} => ⟨fun _ _ h => absurd h List.not_mem_nil, fun _ => ⟨start, rfl⟩⟩
    | cons value rest ih =>
      intro start
      rw [List.foldlM_cons, Except.succeeds_bind, List.forall_mem_cons,
        ← parseSupportedKind_succeeds_iff]
      constructor
      · rintro ⟨next, hnext, hrest⟩
        obtain ⟨kind, hkind, _⟩ := Except.bind_eq_ok.mp hnext
        exact ⟨⟨kind, hkind⟩, ih.mp hrest⟩
      · rintro ⟨⟨kind, hkind⟩, hrest⟩
        exact ⟨start.insert kind, by rw [hkind]; rfl, ih.mpr hrest⟩
  cases values with
  | nil => simp [hname]
  | cons value rest =>
    dsimp only [List.isEmpty_cons]
    by_cases hlen : (value :: rest).length > limits.maxSupportedKinds.toNat
    · simp only [Bool.false_eq_true, if_false, hlen, if_true, Except.not_succeeds_error, hname,
        true_implies, false_iff]
      exact fun h => absurd h.1 (not_le.mpr hlen)
    · simp only [Bool.false_eq_true, if_false, hlen, hname, true_implies, not_lt.mp hlen,
        true_and, Except.succeeds_bind]
      rw [← @hfold _ ∅]
      constructor
      · rintro ⟨kinds, hkinds, _⟩
        exact ⟨kinds, hkinds⟩
      · rintro ⟨kinds, hkinds⟩
        exact ⟨kinds, hkinds, _, rfl⟩

namespace GroupEventTag

/-- A tag has one name. -/
theorem isNamed_eq_false {tag : GroupEventTag} {name name' : String}
    (h : tag.isNamed name = true) (hne : name.toList ≠ name'.toList) :
    tag.isNamed name' = false := by
  have hfirst : tag.firstValue = some name.toList := beq_iff_eq.mp h
  simp [isNamed, hfirst, hne]

end GroupEventTag

/-- A tag of another name is within the bounds of metadata. -/
theorem MetadataTagReadable.of_other {limits : GroupLimitsConfig} {tag : GroupEventTag}
    (hname : tag.isNamed "name" = false) (hpicture : tag.isNamed "picture" = false)
    (habout : tag.isNamed "about" = false) (hkinds : tag.isNamed "supported_kinds" = false) :
    MetadataTagReadable limits tag where
  name h := absurd h (by simp [hname])
  picture h := absurd h (by simp [hpicture])
  about h := absurd h (by simp [habout])
  kinds h := absurd h (by simp [hkinds])

/-- A flag is within the bounds of metadata. -/
theorem MetadataTagReadable.of_flag {limits : GroupLimitsConfig} {tag : GroupEventTag}
    {flag : String} (h : tag.isNamed flag = true) (hflag : ∀ name ∈
      ["name", "picture", "about", "supported_kinds"], flag.toList ≠ name.toList) :
    MetadataTagReadable limits tag ∧ tag.isNamed "supported_kinds" = false := by
  have hne : ∀ name ∈ ["name", "picture", "about", "supported_kinds"], tag.isNamed name = false :=
    fun name hname => GroupEventTag.isNamed_eq_false h (hflag name hname)
  have hkinds : tag.isNamed "supported_kinds" = false := hne _ (by decide)
  exact ⟨.of_other (hne _ (by decide)) (hne _ (by decide)) (hne _ (by decide)) hkinds, hkinds⟩

/-- Reading a tag succeeds when the tag is within its bounds and is no second list of kinds. -/
theorem MetadataBuilder.visit_succeeds_iff {limits : GroupLimitsConfig}
    {builder : MetadataBuilder} {tag : GroupEventTag} :
    (builder.visit limits tag).Succeeds ↔ MetadataTagReadable limits tag ∧
      (tag.isNamed "supported_kinds" = true → builder.supportedKinds = none) := by
  -- a text tag is read when its text is, and is within bounds when its text is
  have htext : ∀ {name : String} {maxBytes : Nat} {k : Option Text → MetadataBuilder},
      tag.isNamed name = true → tag.isNamed "supported_kinds" = false →
      (TextTagReadable tag name maxBytes ↔ MetadataTagReadable limits tag) →
      ((do return k (← parseTextTag tag name maxBytes)).Succeeds ↔
        MetadataTagReadable limits tag ∧
          (tag.isNamed "supported_kinds" = true → builder.supportedKinds = none)) := by
    intro name maxBytes k hname hkinds hiff
    rw [← hiff, ← parseTextTag_succeeds_iff hname, Except.succeeds_bind, hkinds]
    exact ⟨fun ⟨value, hvalue, _⟩ => ⟨⟨value, hvalue⟩, fun h => (nomatch h)⟩,
      fun ⟨⟨value, hvalue⟩, _⟩ => ⟨value, hvalue, _, rfl⟩⟩
  have hflag : ∀ {flag : String} {next : MetadataBuilder}, tag.isNamed flag = true →
      (∀ name ∈ ["name", "picture", "about", "supported_kinds"], flag.toList ≠ name.toList) →
      ((Except.ok next : Except GroupError MetadataBuilder).Succeeds ↔
        MetadataTagReadable limits tag ∧
          (tag.isNamed "supported_kinds" = true → builder.supportedKinds = none)) := by
    intro flag next h hne
    obtain ⟨hreadable, hkinds⟩ := MetadataTagReadable.of_flag h hne
    exact ⟨fun _ => ⟨hreadable, fun hk => absurd hk (by simp [hkinds])⟩, fun _ => ⟨next, rfl⟩⟩
  unfold MetadataBuilder.visit
  split
  · next hname =>
    have hne : ∀ {other : String}, "name".toList ≠ other.toList → tag.isNamed other = false :=
      GroupEventTag.isNamed_eq_false hname
    refine htext hname (hne (by decide)) ⟨fun h => ?_, fun h => h.name⟩
    exact ⟨h, fun htag => absurd htag (by simp [hne (by decide : _ ≠ "picture".toList)]),
      fun htag => absurd htag (by simp [hne (by decide : _ ≠ "about".toList)]),
      fun htag => absurd htag (by simp [hne (by decide : _ ≠ "supported_kinds".toList)])⟩
  split
  · next hname hpicture =>
    have hne : ∀ {other : String}, "picture".toList ≠ other.toList → tag.isNamed other = false :=
      GroupEventTag.isNamed_eq_false hpicture
    refine htext hpicture (hne (by decide)) ⟨fun h => ?_, fun h => h.picture⟩
    exact ⟨fun htag => absurd htag hname, h,
      fun htag => absurd htag (by simp [hne (by decide : _ ≠ "about".toList)]),
      fun htag => absurd htag (by simp [hne (by decide : _ ≠ "supported_kinds".toList)])⟩
  split
  · next hname hpicture habout =>
    have hne : ∀ {other : String}, "about".toList ≠ other.toList → tag.isNamed other = false :=
      GroupEventTag.isNamed_eq_false habout
    refine htext habout (hne (by decide)) ⟨fun h => ?_, fun h => h.about⟩
    exact ⟨fun htag => absurd htag hname, fun htag => absurd htag hpicture, h,
      fun htag => absurd htag (by simp [hne (by decide : _ ≠ "supported_kinds".toList)])⟩
  split
  · next htag => exact hflag htag (by decide)
  split
  · next htag => exact hflag htag (by decide)
  split
  · next htag => exact hflag htag (by decide)
  split
  · next htag => exact hflag htag (by decide)
  next hname hpicture habout _ _ _ _ =>
  split
  · next hkinds =>
    have hiff : KindsTagReadable limits tag ↔ MetadataTagReadable limits tag :=
      ⟨fun h => ⟨fun htag => absurd htag hname, fun htag => absurd htag hpicture,
        fun htag => absurd htag habout, h⟩, fun h => h.kinds⟩
    rw [← hiff, ← parseSupportedKindsTag_succeeds_iff hkinds]
    cases hsupported : builder.supportedKinds with
    | none =>
      simp only [Option.isSome_none, Bool.false_eq_true, if_false, implies_true, and_true,
        Except.succeeds_bind]
      exact ⟨fun ⟨kinds, h, _⟩ => ⟨kinds, h⟩, fun ⟨kinds, h⟩ => ⟨kinds, h, _, rfl⟩⟩
    | some kinds =>
      simp [hkinds]
  · next hkinds =>
    have hnot : tag.isNamed "supported_kinds" = false := Bool.eq_false_iff.mpr hkinds
    refine ⟨fun _ => ⟨.of_other (Bool.eq_false_iff.mpr hname) (Bool.eq_false_iff.mpr hpicture)
      (Bool.eq_false_iff.mpr habout) hnot, fun htag => absurd htag hkinds⟩, fun _ => ⟨_, rfl⟩⟩

/-- A tag that is not a list of kinds leaves the kinds of a builder alone; a list sets them. -/
theorem MetadataBuilder.supportedKinds_of_visit {limits : GroupLimitsConfig}
    {builder next : MetadataBuilder} {tag : GroupEventTag}
    (h : builder.visit limits tag = .ok next) :
    next.supportedKinds.isSome =
      (builder.supportedKinds.isSome || tag.isNamed "supported_kinds") := by
  have hne : ∀ {name : String}, tag.isNamed name = true → name.toList ≠ "supported_kinds".toList →
      tag.isNamed "supported_kinds" = false := GroupEventTag.isNamed_eq_false
  cases MetadataBuilder.reads_of_visit h with
  | name htag _ => simp [hne htag (by decide)]
  | picture htag _ => simp [hne htag (by decide)]
  | about htag _ => simp [hne htag (by decide)]
  | isPrivate htag => simp [hne htag (by decide)]
  | restricted htag => simp [hne htag (by decide)]
  | hidden htag => simp [hne htag (by decide)]
  | closed htag => simp [hne htag (by decide)]
  | supportedKinds htag _ _ => simp [htag]
  | other htag => simp [htag]

/-- Metadata is read from the tags it can be read from, and from no others. -/
theorem visitTags_metadata_succeeds_iff {limits : GroupLimitsConfig} {tags : List GroupEventTag}
    {builder : MetadataBuilder} :
    (tags.foldlM (MetadataBuilder.visit limits) builder).Succeeds ↔
      (∀ tag ∈ tags, MetadataTagReadable limits tag) ∧
        tags.countP (·.isNamed "supported_kinds") + builder.supportedKinds.toList.length ≤ 1 := by
  induction tags generalizing builder with
  | nil =>
    cases builder.supportedKinds with
    | none => simp [Except.Succeeds, pure, Except.pure]
    | some kinds => simp [Except.Succeeds, pure, Except.pure]
  | cons tag rest ih =>
    rw [List.foldlM_cons, Except.succeeds_bind, List.forall_mem_cons, List.countP_cons]
    have hlength : ∀ builder : MetadataBuilder, builder.supportedKinds.toList.length =
        if builder.supportedKinds.isSome then 1 else 0 := by
      intro builder
      cases builder.supportedKinds <;> rfl
    constructor
    · rintro ⟨next, hnext, hrest⟩
      obtain ⟨hreadable, hone⟩ := MetadataBuilder.visit_succeeds_iff.mp ⟨next, hnext⟩
      obtain ⟨hall, hcount⟩ := ih.mp hrest
      refine ⟨⟨hreadable, hall⟩, ?_⟩
      rw [hlength, MetadataBuilder.supportedKinds_of_visit hnext] at hcount
      rw [hlength]
      cases hkinds : tag.isNamed "supported_kinds" with
      | false => simpa [hkinds] using hcount
      | true =>
        have hnone := hone hkinds
        simp only [hkinds, hnone, Option.isSome_none, Bool.or_true, if_true] at hcount ⊢
        simpa using hcount
    · rintro ⟨⟨htag, hrest⟩, hcount⟩
      have hone : tag.isNamed "supported_kinds" = true → builder.supportedKinds = none := by
        intro hkinds
        rw [if_pos hkinds] at hcount
        cases hbuilder : builder.supportedKinds with
        | none => rfl
        | some kinds =>
          rw [hbuilder, Option.toList_some, List.length_singleton] at hcount
          omega
      obtain ⟨next, hnext⟩ := MetadataBuilder.visit_succeeds_iff.mpr ⟨htag, hone⟩
      refine ⟨next, hnext, ih.mpr ⟨hrest, ?_⟩⟩
      rw [hlength, MetadataBuilder.supportedKinds_of_visit hnext]
      rw [hlength] at hcount
      cases hkinds : tag.isNamed "supported_kinds" with
      | false => simpa [hkinds] using hcount
      | true =>
        simp only [hkinds, hone hkinds, Option.isSome_none, Bool.or_true, if_true] at hcount ⊢
        simpa using hcount

/-- **What metadata can be read from.** -/
theorem parseGroupMetadata_succeeds_iff {event : PocketEvent} {limits : GroupLimitsConfig} :
    (parseGroupMetadata event limits).Succeeds ↔
      ∃ tags, GroupEventView.Decodes event tags ∧ MetadataReadable limits tags := by
  unfold parseGroupMetadata
  rw [Except.succeeds_bind]
  refine ⟨fun ⟨builder, hbuilder, _⟩ => ?_, fun ⟨tags, htags, hreadable⟩ => ?_⟩
  · obtain ⟨tags, htags, hfold⟩ := GroupEventView.visitTags_eq_ok.mp hbuilder
    obtain ⟨hall, hcount⟩ := visitTags_metadata_succeeds_iff.mp ⟨builder, hfold⟩
    exact ⟨tags, htags, hall, hcount⟩
  · obtain ⟨builder, hfold⟩ := (@visitTags_metadata_succeeds_iff limits tags {}).mpr
      ⟨hreadable.each, hreadable.oneKinds⟩
    exact ⟨builder, GroupEventView.visitTags_eq_ok.mpr ⟨tags, htags, hfold⟩, _, rfl⟩

end Tangle
