import Tangle.Lib.Except
import Tangle.Pocket.Event
import Tangle.Groups.Errors

/-!
# The view the group engine has of an event

The engine reads an event through a view: its id, author and kind as checked scalars, and its tags
one by one, each decoded as text before a visitor sees it. A visitor that fails, or a tag that is
not text, ends the walk. `visitTags_eq_ok` turns a walk into a fold over the decoded tags.

Five functions of the program look for the value of the last tag of a name and differ only in how
they check each value on the way; `lastTargetTag` is that walk, and `lastTargetTag_eq_ok` says what
it accepts and returns.
-/

namespace Tangle

/-- A decoded tag. -/
structure GroupEventTag where
  values : List Text
deriving DecidableEq

/-- A tag name of one ASCII letter. -/
def isIndexableTagName : Text → Bool
  | [c] => c.isAlpha
  | _ => false

/-- Decodes one value of a tag. -/
def tagValueUtf8 : TagValue → Except GroupError Text
  | .text value => .ok value
  | .raw _ => .error (.invalid .malformedGroupTag "group event tag is not valid UTF-8")

/-- `event_view_scalar_error`. -/
def eventViewScalarError (error : String) : GroupError :=
  .internal error

namespace GroupEventTag

/-- `GroupEventTag::value`: the value at an index, the name being the first. -/
def value (tag : GroupEventTag) (index : Nat) : Option Text :=
  tag.values[index]?

/-- `first_value`. -/
def firstValue (tag : GroupEventTag) : Option Text :=
  tag.value 0

/-- Name and value of a tag with a one-letter name and a value. -/
def indexedPair (tag : GroupEventTag) : Option (Text × Text) := do
  let name ← tag.firstValue
  if isIndexableTagName name then
    let value ← tag.value 1
    return (name, value)
  else
    none

/-- `GroupEventTag::from_pocket`: each value must be UTF-8. -/
def fromPocket (raw : List TagValue) : Except GroupError GroupEventTag := do
  return ⟨← raw.mapM tagValueUtf8⟩

/-- The tag is named `name`. -/
def isNamed (tag : GroupEventTag) (name : String) : Bool :=
  tag.firstValue == some name.toList

/-- A tag with a one-letter name has an indexed value when it has a value at all. -/
theorem indexedPair_eq_some {tag : GroupEventTag} {name : String} {value : Text}
    (hname : tag.isNamed name = true) (hone : isIndexableTagName name.toList = true) :
    tag.indexedPair = some (name.toList, value) ↔ tag.value 1 = some value := by
  have hfirst : tag.firstValue = some name.toList := beq_iff_eq.mp hname
  simp only [indexedPair, hfirst, Option.bind_eq_bind, Option.bind_some, hone, if_true]
  cases tag.value 1 <;> simp

/-- The indexed value of a tag is its second. -/
theorem value_of_indexedPair {tag : GroupEventTag} {name value : Text}
    (h : tag.indexedPair = some (name, value)) : tag.value 1 = some value := by
  obtain ⟨first, _, h⟩ := Option.bind_eq_some_iff.mp h
  split at h
  · obtain ⟨second, hsecond, h⟩ := Option.bind_eq_some_iff.mp h
    cases h
    exact hsecond
  · cases h

end GroupEventTag

namespace GroupEventView

def idHex (event : PocketEvent) : Text := event.id.text
def pubkeyHex (event : PocketEvent) : Text := event.pubkey.text
def kindU32 (event : PocketEvent) : Nat := event.kind.toNat
def createdAt (event : PocketEvent) : UnixTimestamp := event.createdAt

/-- `GroupEventView::id`. -/
def id (event : PocketEvent) : Except GroupError EventId :=
  (EventId.new (idHex event)).mapError eventViewScalarError

/-- `GroupEventView::pubkey`. -/
def pubkey (event : PocketEvent) : Except GroupError PublicKeyHex :=
  (PublicKeyHex.new (pubkeyHex event)).mapError eventViewScalarError

/-- `GroupEventView::kind`. -/
def kind (event : PocketEvent) : Except GroupError Kind :=
  (Kind.new (kindU32 event)).mapError eventViewScalarError

/-- Walks the tags, decoding each before `visitor` sees it. -/
def visitTags {σ : Type} (event : PocketEvent) (visitor : σ → GroupEventTag → Except GroupError σ)
    (start : σ) : Except GroupError σ :=
  event.tags.foldlM (fun state raw => do visitor state (← GroupEventTag.fromPocket raw)) start

/-- An event's own scalars are well formed. -/
@[simp] theorem id_eq (event : PocketEvent) : id event = .ok event.id := by
  simp [id, idHex]

/-- The key of an event is read as it is. -/
@[simp] theorem pubkey_eq (event : PocketEvent) : pubkey event = .ok event.pubkey := by
  simp [pubkey, pubkeyHex]

/-- The kind of an event as the engine's 32-bit kind. -/
def eventKind (event : PocketEvent) : Kind :=
  ⟨event.kind.toNat, lt_trans event.kind.toNat_lt (by decide)⟩

/-- The kind of an event is read as the engine's. -/
@[simp] theorem kind_eq (event : PocketEvent) : kind event = .ok (eventKind event) := by
  simp only [kind, Except.mapError_eq_ok]
  exact Kind.new_eq_ok.mpr rfl

/-- The engine's kind has the number of the event's. -/
@[simp] theorem eventKind_value (event : PocketEvent) : (eventKind event).value = kindU32 event :=
  rfl

/-- The event's tags are all text and decode to `tags`. -/
def Decodes (event : PocketEvent) (tags : List GroupEventTag) : Prop :=
  event.tags.mapM GroupEventTag.fromPocket = .ok tags

/-- An event decodes to one list of tags at most. -/
theorem Decodes.unique {event : PocketEvent} {tags tags' : List GroupEventTag}
    (h : Decodes event tags) (h' : Decodes event tags') : tags = tags' :=
  Except.ok.inj (Eq.trans (Eq.symm h) h')

/-- A walk over an event that decodes is a fold over its decoded tags. -/
theorem Decodes.visitTags {σ : Type} {event : PocketEvent} {tags : List GroupEventTag}
    {visitor : σ → GroupEventTag → Except GroupError σ} (h : Decodes event tags) (start : σ) :
    visitTags event visitor start = tags.foldlM visitor start := by
  unfold GroupEventView.visitTags
  have hall := Except.mapM_eq_ok.mp h
  clear h
  generalize event.tags = raws at hall
  induction hall generalizing start with
  | nil => rfl
  | cons hraw _ ih =>
    simp only [List.foldlM_cons, hraw, Except.ok_bind]
    exact congrArg _ (funext ih)

/-- A walk that ends has decoded every tag. -/
theorem visitTags_eq_ok {σ : Type} {event : PocketEvent}
    {visitor : σ → GroupEventTag → Except GroupError σ} {start t : σ} :
    visitTags event visitor start = .ok t ↔
      ∃ tags, Decodes event tags ∧ tags.foldlM visitor start = .ok t := by
  refine ⟨fun h => ?_, fun ⟨tags, htags, h⟩ => (htags.visitTags start).trans h⟩
  unfold visitTags at h
  unfold Decodes
  generalize event.tags = raws at h
  induction raws generalizing start with
  | nil => exact ⟨[], rfl, h⟩
  | cons raw rest ih =>
    obtain ⟨s, hs, hrest⟩ := Except.foldlM_cons_ok.mp h
    obtain ⟨tag, htag, hs⟩ := Except.bind_eq_ok.mp hs
    obtain ⟨tags, htags, ht⟩ := ih hrest
    refine ⟨tag :: tags, ?_, Except.foldlM_cons_ok.mpr ⟨s, hs, ht⟩⟩
    rw [List.mapM_cons, htag, Except.ok_bind, htags]
    rfl

/-! ## The last tag of a name -/

/-- The value of a target tag, checked by `parse`. -/
def targetValue {α : Type} (name : String) (parse : Text → Except GroupError α)
    (tag : GroupEventTag) : Except GroupError α :=
  match tag.indexedPair with
  | none => .error (.invalid .malformedTargetTag s!"malformed {name} target tag")
  | some (_, value) => parse value

/-- The value of the last tag named `name`; each tag of that name is checked on the way. -/
def lastTargetTag {α : Type} (name : String) (parse : Text → Except GroupError α)
    (event : PocketEvent) : Except GroupError α := do
  let found ← visitTags event
    (fun found tag =>
      if tag.isNamed name then some <$> targetValue name parse tag else .ok found)
    (none : Option α)
  match found with
  | some value => .ok value
  | none => .error (.invalid .missingTargetTag s!"missing {name} target tag")

/-- The fold of `lastTargetTag` checks the tags of the name and keeps the last value. -/
theorem lastTargetTag_fold {α : Type} {name : String} {parse : Text → Except GroupError α}
    {tags : List GroupEventTag} {start found : Option α} :
    tags.foldlM (fun found tag =>
        if tag.isNamed name then some <$> targetValue name parse tag else .ok found) start
      = .ok found ↔
      ∃ values, (tags.filter (·.isNamed name)).mapM (targetValue name parse) = .ok values ∧
        found = values.getLast?.or start := by
  induction tags generalizing start with
  | nil =>
    refine ⟨fun h => ⟨[], rfl, ?_⟩, ?_⟩
    · cases h
      rfl
    · rintro ⟨values, hvalues, h⟩
      cases hvalues
      subst h
      rfl
  | cons tag rest ih =>
    rw [Except.foldlM_cons_ok]
    by_cases hname : tag.isNamed name = true
    · simp only [hname, if_true, List.filter_cons_of_pos, List.mapM_cons, Except.map_eq_ok, ih]
      constructor
      · rintro ⟨s, ⟨a, ha, hs⟩, values, hvalues, hfound⟩
        refine ⟨a :: values, by rw [ha, Except.ok_bind, hvalues]; rfl, ?_⟩
        subst hs hfound
        cases hl : values.getLast? <;> simp [List.getLast?_cons, hl]
      · rintro ⟨values, h, hfound⟩
        obtain ⟨a, ha, h⟩ := Except.bind_eq_ok.mp h
        obtain ⟨values', hvalues', h⟩ := Except.bind_eq_ok.mp h
        cases h
        refine ⟨some a, ⟨a, ha, rfl⟩, values', hvalues', ?_⟩
        subst hfound
        cases hl : values'.getLast? <;> simp [List.getLast?_cons, hl]
    · simp only [hname, if_false, List.filter_cons_of_neg, Bool.false_eq_true, not_false_eq_true,
        Except.ok.injEq, exists_eq_left', ih]

/-- What the walk accepts: the event decodes, every tag of the name has a value that passes, and
there is one such tag; what it returns: the value of the last. -/
theorem lastTargetTag_eq_ok {α : Type} {name : String} {parse : Text → Except GroupError α}
    {event : PocketEvent} {a : α} :
    lastTargetTag name parse event = .ok a ↔
      ∃ tags values, Decodes event tags ∧
        (tags.filter (·.isNamed name)).mapM (targetValue name parse) = .ok values ∧
        values.getLast? = some a := by
  unfold lastTargetTag
  rw [Except.bind_eq_ok]
  refine ⟨fun ⟨found, hfound, h⟩ => ?_, fun ⟨tags, values, htags, hvalues, ha⟩ => ?_⟩
  · obtain ⟨tags, htags, hfold⟩ := visitTags_eq_ok.mp hfound
    obtain ⟨values, hvalues, hlast⟩ := lastTargetTag_fold.mp hfold
    refine ⟨tags, values, htags, hvalues, ?_⟩
    cases found with
    | none => cases h
    | some b => cases h; simpa using hlast.symm
  · exact ⟨some a, visitTags_eq_ok.mpr ⟨tags, htags, lastTargetTag_fold.mpr
      ⟨values, hvalues, by simp [ha]⟩⟩, rfl⟩

/-- A walk that checks each value finds the check of the value that a walk without checks finds. -/
theorem lastTargetTag_value {α : Type} {name : String} {parse : Text → Except GroupError α}
    {event : PocketEvent} {a : α} (h : lastTargetTag name parse event = .ok a) :
    ∃ value, lastTargetTag name .ok event = .ok value ∧ parse value = .ok a := by
  have hfold : ∀ (tags : List GroupEventTag) (start found : Option α) (start' : Option Text),
      Option.Rel (fun a value => parse value = .ok a) start start' →
      tags.foldlM (fun found tag =>
        if tag.isNamed name then some <$> targetValue name parse tag else .ok found) start
        = .ok found →
      ∃ found', tags.foldlM (fun found tag =>
          if tag.isNamed name then some <$> targetValue name .ok tag else .ok found) start'
          = .ok found' ∧ Option.Rel (fun a value => parse value = .ok a) found found' := by
    intro tags
    induction tags with
    | nil =>
      intro start found start' hrel h
      cases h
      exact ⟨start', rfl, hrel⟩
    | cons tag rest ih =>
      intro start found start' hrel h
      obtain ⟨next, hnext, hrest⟩ := Except.foldlM_cons_ok.mp h
      split at hnext
      · next hname =>
        obtain ⟨read, hread, rfl⟩ := Except.map_eq_ok.mp hnext
        unfold targetValue at hread
        split at hread
        · cases hread
        · next value hpair =>
          obtain ⟨found', hfound', hrel'⟩ := ih _ _ (some value) (.some hread) hrest
          refine ⟨found', Except.foldlM_cons_ok.mpr ⟨some value, ?_, hfound'⟩, hrel'⟩
          rw [if_pos hname, targetValue, hpair]
          rfl
      · next hname =>
        cases hnext
        obtain ⟨found', hfound', hrel'⟩ := ih _ _ start' hrel hrest
        exact ⟨found', Except.foldlM_cons_ok.mpr ⟨start', by rw [if_neg hname], hfound'⟩, hrel'⟩
  obtain ⟨found, hfound, h⟩ := Except.bind_eq_ok.mp h
  obtain ⟨tags, htags, hwalk⟩ := visitTags_eq_ok.mp hfound
  obtain ⟨found', hfound', hrel⟩ := hfold tags none found none .none hwalk
  have hvisit := visitTags_eq_ok.mpr ⟨tags, htags, hfound'⟩
  cases hrel with
  | none => cases h
  | @some a' value hparse =>
    cases h
    refine ⟨value, ?_, hparse⟩
    rw [lastTargetTag, hvisit]
    rfl

/-- The walk succeeds when there is a tag of the name and each has a value that passes. -/
theorem lastTargetTag_succeeds_iff {α : Type} {name : String}
    {parse : Text → Except GroupError α} {event : PocketEvent}
    (hone : isIndexableTagName name.toList = true) :
    (lastTargetTag name parse event).Succeeds ↔
      ∃ tags, Decodes event tags ∧ (∃ tag ∈ tags, tag.isNamed name = true) ∧
        ∀ tag ∈ tags, tag.isNamed name = true →
          ∃ value, tag.value 1 = some value ∧ (parse value).Succeeds := by
  have htarget : ∀ {tag : GroupEventTag}, tag.isNamed name = true →
      ((targetValue name parse tag).Succeeds ↔
        ∃ value, tag.value 1 = some value ∧ (parse value).Succeeds) := by
    intro tag hname
    unfold targetValue
    cases hvalue : tag.value 1 with
    | none =>
      have hnone : tag.indexedPair = none := by
        cases hpair : tag.indexedPair with
        | none => rfl
        | some pair => cases (GroupEventTag.value_of_indexedPair hpair).symm.trans hvalue
      simp [hnone]
    | some value =>
      rw [(GroupEventTag.indexedPair_eq_some hname hone).mpr hvalue]
      simp
  refine ⟨fun ⟨a, ha⟩ => ?_, fun ⟨tags, htags, ⟨first, hfirst, hname⟩, hall⟩ => ?_⟩
  · obtain ⟨tags, values, htags, hvalues, hlast⟩ := lastTargetTag_eq_ok.mp ha
    have hpairs := Except.mapM_eq_ok.mp hvalues
    refine ⟨tags, htags, ?_, fun tag htag hname => ?_⟩
    · cases hfilter : tags.filter (·.isNamed name) with
      | nil =>
        rw [hfilter] at hpairs
        cases hpairs
        cases hlast
      | cons tag rest =>
        have hmem : tag ∈ tags.filter (·.isNamed name) := by simp [hfilter]
        exact ⟨tag, (List.mem_filter.mp hmem).1, (List.mem_filter.mp hmem).2⟩
    · have hmem : tag ∈ tags.filter (·.isNamed name) := List.mem_filter.mpr ⟨htag, hname⟩
      obtain ⟨i, hi, hget⟩ := List.getElem_of_mem hmem
      have hi' : i < values.length := hpairs.length_eq ▸ hi
      have hstep := (List.forall₂_iff_get.mp hpairs).2 i hi hi'
      rw [List.get_eq_getElem, hget] at hstep
      exact (htarget hname).mp ⟨_, hstep⟩
  · have hmap : ∀ l : List GroupEventTag, (∀ tag ∈ l, (targetValue name parse tag).Succeeds) →
        ∃ values, l.mapM (targetValue name parse) = .ok values ∧ values.length = l.length := by
      intro l
      induction l with
      | nil => exact fun _ => ⟨[], rfl, rfl⟩
      | cons tag rest ih =>
        intro h
        obtain ⟨a, ha⟩ := h tag (List.mem_cons_self ..)
        obtain ⟨values, hvalues, hlength⟩ := ih fun t ht => h t (List.mem_cons_of_mem _ ht)
        refine ⟨a :: values, ?_, congrArg (· + 1) hlength⟩
        rw [List.mapM_cons, ha, Except.ok_bind, hvalues]
        rfl
    obtain ⟨values, hvalues, hlength⟩ := hmap (tags.filter (·.isNamed name)) fun tag htag =>
      (htarget (List.mem_filter.mp htag).2).mpr
        (hall tag (List.mem_filter.mp htag).1 (List.mem_filter.mp htag).2)
    have hpos : 0 < values.length := by
      rw [hlength]
      exact List.length_pos_of_mem (List.mem_filter.mpr ⟨hfirst, hname⟩)
    have hne : values ≠ [] := List.length_pos_iff.mp hpos
    exact ⟨values.getLast hne, lastTargetTag_eq_ok.mpr
      ⟨tags, values, htags, hvalues, List.getLast?_eq_some_getLast hne⟩⟩

end GroupEventView

end Tangle
