import Tangle.Groups.EventView
import Tangle.Groups.Ids

/-!
# Group tags, classes and the structure gate

A group event names its group in an `h` tag, or in a `d` tag when the relay generated it. Its kind
and these tags decide its class, and a client's event passes the structure gate when the class is
one a client may send and a moderation event has the target tags its kind needs.
-/

namespace Tangle

open GroupEventView

/-! ## Group tags -/

/-- The names of the tags that name a group. -/
inductive GroupTagName where
  | h | d
deriving DecidableEq

/-- `GroupTagName::as_str`. -/
def GroupTagName.asStr : GroupTagName → String
  | .h => "h"
  | .d => "d"

/-- A tag that names a group. -/
structure GroupTag where
  name : GroupTagName
  groupId : GroupId
deriving DecidableEq

/-- `is_group_identity_tag_name`: `h` and `d` name groups. -/
def isGroupIdentityTagName (name : Text) : Bool :=
  name == GroupTagName.h.asStr.toList || name == GroupTagName.d.asStr.toList

/-- `has_group_identity_tag`: some tag names a group; every tag is decoded. -/
def hasGroupIdentityTag (event : PocketEvent) : Except GroupError Bool :=
  visitTags event
    (fun found tag => .ok (found || tag.firstValue.any isGroupIdentityTagName)) false

/-- `group_identity_tag_count`: how many tags name a group; every tag is decoded. -/
def groupIdentityTagCount (event : PocketEvent) : Except GroupError Nat :=
  visitTags event
    (fun count tag =>
      .ok (if tag.firstValue.any isGroupIdentityTagName then count + 1 else count)) 0

/-- `ensure_group_tag_limit`: the tags that name groups are no more than the limits allow. -/
def ensureGroupTagLimit (event : PocketEvent) (limits : GroupLimitsConfig) :
    Except GroupError Unit := do
  let count ← groupIdentityTagCount event
  let max := limits.maxGroupTagsPerEvent.toNat
  if count > max then
    throw (.invalid .tooManyGroupTags s!"group event has {count} group tags, maximum is {max}")

/-- The group the tags of one name agree on. -/
def extractGroupTag (event : PocketEvent) (name : GroupTagName) (limits : GroupLimitsConfig) :
    Except GroupError (Option GroupTag) := do
  let found ← visitTags event
    (fun found tag =>
      if tag.isNamed name.asStr then
        match tag.indexedPair with
        | none => .error (.invalid .malformedGroupTag s!"malformed {name.asStr} group tag")
        | some (_, value) => do
          let groupId ← GroupId.newWithMaxBytes value limits.maxGroupIdBytes.toNat
          match found with
          | some first =>
            if first ≠ groupId then
              .error (.invalid .conflictingGroupTag s!"conflicting {name.asStr} group tags")
            else
              .ok found
          | none => .ok (some groupId)
      else
        .ok found)
    (none : Option GroupId)
  return found.map (GroupTag.mk name)

/-- `require_group_tag`: the tag of that name, an error that it is missing where there is none. -/
def requireGroupTag (event : PocketEvent) (name : GroupTagName) (limits : GroupLimitsConfig) :
    Except GroupError GroupTag := do
  match ← extractGroupTag event name limits with
  | some tag => return tag
  | none => throw (.invalid .missingGroupTag s!"missing {name.asStr} group tag")

/-! ## Classes -/

/-- What an event is to the group engine. -/
inductive GroupEventClass where
  | nonGroup
  | normal (groupId : GroupId)
  | moderation (kind : Kind) (groupId : GroupId)
  | relayGeneratedSnapshot (kind : Kind) (groupId : GroupId)
deriving DecidableEq

namespace GroupEventClass

/-- `GroupEventClass::group_id`. -/
def groupId : GroupEventClass → Option GroupId
  | nonGroup => none
  | normal groupId | moderation _ groupId | relayGeneratedSnapshot _ groupId => some groupId

end GroupEventClass

/-- `classify_group_event`: by the kind, which says whether a group must be named and by which
tag. -/
def classifyGroupEvent (event : PocketEvent) (limits : GroupLimitsConfig) :
    Except GroupError GroupEventClass := do
  let kind ← GroupEventView.kind event
  if isRelayGeneratedKind kind then
    return .relayGeneratedSnapshot kind (← requireGroupTag event .d limits).groupId
  else if isModerationKind kind then
    return .moderation kind (← requireGroupTag event .h limits).groupId
  else if isUserRequestKind kind then
    return .normal (← requireGroupTag event .h limits).groupId
  else if ← hasGroupIdentityTag event then
    match ← extractGroupTag event .h limits with
    | some groupTag => return .normal groupTag.groupId
    | none => return .nonGroup
  else
    return .nonGroup

/-- A tag that was required is one that was extracted. -/
theorem extractGroupTag_of_require {event : PocketEvent} {name : GroupTagName}
    {limits : GroupLimitsConfig} {groupTag : GroupTag}
    (h : requireGroupTag event name limits = .ok groupTag) :
    extractGroupTag event name limits = .ok (some groupTag) := by
  obtain ⟨found, hfound, h⟩ := Except.bind_eq_ok.mp h
  cases found with
  | none => cases h
  | some found => cases h; exact hfound

/-- The group of a class is the one that the tags of some name agree on. -/
theorem extractGroupTag_of_class {event : PocketEvent} {limits : GroupLimitsConfig}
    {eventClass : GroupEventClass} {groupId : GroupId}
    (h : classifyGroupEvent event limits = .ok eventClass)
    (hgroup : eventClass.groupId = some groupId) :
    ∃ name groupTag, extractGroupTag event name limits = .ok (some groupTag) ∧
      groupTag.groupId = groupId := by
  unfold classifyGroupEvent at h
  rw [GroupEventView.kind_eq, Except.ok_bind] at h
  split at h
  · obtain ⟨groupTag, htag, h⟩ := Except.bind_eq_ok.mp h
    cases h
    cases hgroup
    exact ⟨.d, groupTag, extractGroupTag_of_require htag, rfl⟩
  split at h
  · obtain ⟨groupTag, htag, h⟩ := Except.bind_eq_ok.mp h
    cases h
    cases hgroup
    exact ⟨.h, groupTag, extractGroupTag_of_require htag, rfl⟩
  split at h
  · obtain ⟨groupTag, htag, h⟩ := Except.bind_eq_ok.mp h
    cases h
    cases hgroup
    exact ⟨.h, groupTag, extractGroupTag_of_require htag, rfl⟩
  · obtain ⟨has, _, h⟩ := Except.bind_eq_ok.mp h
    split at h
    · obtain ⟨found, hfound, h⟩ := Except.bind_eq_ok.mp h
      cases found with
      | none => cases h; cases hgroup
      | some groupTag => cases h; cases hgroup; exact ⟨.h, groupTag, hfound, rfl⟩
    · cases h
      cases hgroup

/-- The kind of a moderation or snapshot class is the event's. -/
theorem kind_of_class {event : PocketEvent} {limits : GroupLimitsConfig} {kind : Kind}
    {groupId : GroupId} (h : classifyGroupEvent event limits = .ok (.moderation kind groupId) ∨
      classifyGroupEvent event limits = .ok (.relayGeneratedSnapshot kind groupId)) :
    kind = eventKind event := by
  have hclass : ∀ {eventClass : GroupEventClass},
      classifyGroupEvent event limits = .ok eventClass →
        (∀ kind groupId, eventClass = .moderation kind groupId ∨
          eventClass = .relayGeneratedSnapshot kind groupId → kind = eventKind event) := by
    intro eventClass h kind groupId hkind
    unfold classifyGroupEvent at h
    rw [GroupEventView.kind_eq, Except.ok_bind] at h
    split at h
    · obtain ⟨_, _, h⟩ := Except.bind_eq_ok.mp h
      cases h
      rcases hkind with hkind | hkind <;> cases hkind
      rfl
    split at h
    · obtain ⟨_, _, h⟩ := Except.bind_eq_ok.mp h
      cases h
      rcases hkind with hkind | hkind <;> cases hkind
      rfl
    split at h
    · obtain ⟨_, _, h⟩ := Except.bind_eq_ok.mp h
      cases h
      rcases hkind with hkind | hkind <;> cases hkind
    · obtain ⟨_, _, h⟩ := Except.bind_eq_ok.mp h
      split at h
      · obtain ⟨found, _, h⟩ := Except.bind_eq_ok.mp h
        cases found <;> cases h <;> rcases hkind with hkind | hkind <;> cases hkind
      · cases h
        rcases hkind with hkind | hkind <;> cases hkind
  rcases h with h | h
  · exact hclass h kind groupId (.inl rfl)
  · exact hclass h kind groupId (.inr rfl)

/-! ## The structure gate -/

/-- The value of the last `name` tag; each such tag must have a value. -/
def requireIndexedTagValue (event : PocketEvent) (name : String) : Except GroupError Text :=
  lastTargetTag name .ok event

/-- `require_valid_p_tag`: there is a `p` tag, and the last one names a key. -/
def requireValidPTag (event : PocketEvent) : Except GroupError Unit := do
  let value ← requireIndexedTagValue event "p"
  match PublicKeyHex.new value with
  | .ok _ => .ok ()
  | .error reason => .error (.invalid .malformedTargetTag s!"malformed p target tag: {reason}")

/-- `validate_moderation_targets`: a membership change names a member, a deletion an event. -/
def validateModerationTargets (event : PocketEvent) (kind : Nat) : Except GroupError Unit :=
  match kind with
  | kindGroupPutUser | kindGroupRemoveUser => requireValidPTag event
  | kindGroupDeleteEvent => do
    let _ ← requireIndexedTagValue event "e"
    return ()
  | _ => .ok ()

/-- The checks a client's event passes before any state is looked at. -/
def validateClientGroupEventStructure (event : PocketEvent) (limits : GroupLimitsConfig) :
    Except GroupError GroupEventClass := do
  ensureGroupTagLimit event limits
  let eventClass ← classifyGroupEvent event limits
  match eventClass with
  | .relayGeneratedSnapshot _ _ =>
    throw (.blocked .directRelayGeneratedSubmission
      "relay-generated group state events cannot be submitted by clients")
  | .moderation kind _ =>
    validateModerationTargets event kind.value
    return eventClass
  | .normal _ | .nonGroup => return eventClass

/-- The gate has classified the event and checked the targets of a moderation event. -/
theorem class_of_gate {event : PocketEvent} {limits : GroupLimitsConfig}
    {eventClass : GroupEventClass}
    (h : validateClientGroupEventStructure event limits = .ok eventClass) :
    classifyGroupEvent event limits = .ok eventClass ∧
      (∀ kind groupId, eventClass ≠ .relayGeneratedSnapshot kind groupId) ∧
      ∀ kind groupId, eventClass = .moderation kind groupId →
        validateModerationTargets event kind.value = .ok () := by
  obtain ⟨_, _, h⟩ := Except.bind_eq_ok.mp h
  obtain ⟨found, hfound, h⟩ := Except.bind_eq_ok.mp h
  cases found with
  | relayGeneratedSnapshot kind groupId => cases h
  | moderation kind groupId =>
    obtain ⟨_, htargets, h⟩ := Except.bind_eq_ok.mp h
    cases h
    refine ⟨hfound, fun _ _ h => (nomatch h), fun _ _ h => ?_⟩
    cases h
    exact htargets
  | normal groupId => cases h; exact ⟨hfound, fun _ _ h => (nomatch h), fun _ _ h => (nomatch h)⟩
  | nonGroup => cases h; exact ⟨hfound, fun _ _ h => (nomatch h), fun _ _ h => (nomatch h)⟩

end Tangle
