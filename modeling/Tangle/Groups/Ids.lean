import Tangle.Lib.Except
import Tangle.Groups.Config
import Tangle.Groups.Errors

/-!
# Group ids, role names and kinds

A group id is a text without white space at its ends, control characters or URL separators, of at
most a bound of bytes; the bound is an argument of the check, since an event is checked against the
configured one and a stored row against the default. A role name is a short text without any white
space. Values of both types carry the proof of their shape.
-/

namespace Tangle

/-! ## Group ids -/

/-- The fewest bytes of a group id. -/
def minGroupIdBytes : Nat := 1
def maxGroupIdBytes : Nat := 128

/-- The error about a group id. -/
def invalidGroupId (message : String) : GroupError :=
  .invalid .invalidGroupId message

/-- The check of one character of a group id. -/
def validateGroupIdChar (character : Char) : Except GroupError Unit :=
  if character = '\x00' then
    .error (invalidGroupId "group id must not contain NUL")
  else if Text.isControl character then
    .error (invalidGroupId "group id must not contain control characters")
  else if ['/', '\\', '?', '#', ':', '&', '='].contains character then
    .error (invalidGroupId "group id must not contain slashes or URL separators")
  else
    .ok ()

/-- The checks of a group id: its length in bytes and its characters. -/
def validateGroupId (value : Text) (maxBytes : Nat) : Except GroupError Unit :=
  if value.byteLen < minGroupIdBytes then
    .error (invalidGroupId "group id must not be empty")
  else if value.byteLen > maxBytes then
    .error (invalidGroupId s!"group id must be at most {maxBytes} bytes")
  else if value.trim ≠ value then
    .error (invalidGroupId "group id must not contain leading or trailing whitespace")
  else
    forM value validateGroupIdChar

/-- The shape of a group id, whatever its length. -/
structure IsGroupId (value : Text) : Prop where
  nonempty : minGroupIdBytes ≤ value.byteLen
  trimmed : value.trim = value
  chars : ∀ c ∈ value, validateGroupIdChar c = .ok ()

/-- The check accepts the texts of the shape that are short enough. -/
theorem validateGroupId_eq_ok {value : Text} {maxBytes : Nat} :
    validateGroupId value maxBytes = .ok () ↔ IsGroupId value ∧ value.byteLen ≤ maxBytes := by
  unfold validateGroupId
  split_ifs with hempty hlong htrim
  · exact ⟨fun h => (nomatch h), fun ⟨h, _⟩ => absurd h.nonempty (not_le.mpr hempty)⟩
  · exact ⟨fun h => (nomatch h), fun ⟨_, h⟩ => absurd h (not_le.mpr hlong)⟩
  · exact ⟨fun h => (nomatch h), fun ⟨h, _⟩ => absurd h.trimmed htrim⟩
  · rw [Except.forM_eq_ok]
    refine ⟨fun h => ⟨⟨not_lt.mp hempty, not_not.mp htrim, h⟩, not_lt.mp hlong⟩, fun h => h.1.chars⟩

/-- A group id. -/
structure GroupId where
  text : Text
  isGroupId : IsGroupId text
deriving DecidableEq

namespace GroupId

/-- `GroupId::new_with_max_bytes`. -/
def newWithMaxBytes (value : Text) (maxBytes : Nat) : Except GroupError GroupId :=
  match h : validateGroupId value maxBytes with
  | .error error => .error error
  | .ok () => .ok ⟨value, (validateGroupId_eq_ok.mp h).1⟩

/-- `GroupId::new`, with the longest length that the program knows. -/
def new (value : Text) : Except GroupError GroupId :=
  newWithMaxBytes value maxGroupIdBytes

/-- Ids are told apart by their texts. -/
theorem text_injective : Function.Injective GroupId.text := by
  intro ⟨a, ha⟩ ⟨b, hb⟩ hab
  cases hab
  rfl

instance : LinearOrder GroupId :=
  LinearOrder.lift' GroupId.text text_injective

/-- A text builds an id exactly when it is the id's text and short enough. -/
theorem newWithMaxBytes_eq_ok {value : Text} {maxBytes : Nat} {id : GroupId} :
    newWithMaxBytes value maxBytes = .ok id ↔ id.text = value ∧ value.byteLen ≤ maxBytes := by
  refine ⟨fun h => ?_, fun ⟨htext, hlen⟩ => ?_⟩
  · unfold newWithMaxBytes at h
    split at h
    · cases h
    · next hvalid => cases h; exact ⟨rfl, (validateGroupId_eq_ok.mp hvalid).2⟩
  · subst htext
    unfold newWithMaxBytes
    split
    · next herror => simp [validateGroupId_eq_ok.mpr ⟨id.isGroupId, hlen⟩] at herror
    · rfl

/-- A group id is rebuilt from its text when it is no longer than the default bound. -/
theorem new_text {id : GroupId} (h : id.text.byteLen ≤ maxGroupIdBytes) : new id.text = .ok id :=
  newWithMaxBytes_eq_ok.mpr ⟨rfl, h⟩

/-- A group id holds no NUL, which separates the parts of a storage key. -/
theorem nul_not_mem (id : GroupId) : '\x00' ∉ id.text := by
  intro h
  have hnul := id.isGroupId.chars _ h
  simp [validateGroupIdChar] at hnul

end GroupId

/-! ## Role names -/

/-- The most bytes of the name of a role. -/
def maxRoleNameBytes : Nat := 64

/-- The error about the name of a role. -/
def invalidRole (message : String) : GroupError :=
  .invalid .invalidRole message

/-- The checks of the name of a role: its length in bytes and its characters. -/
def validateRoleName (value : Text) : Except GroupError Unit :=
  if value = [] then
    .error (invalidRole "role name must not be empty")
  else if value.byteLen > maxRoleNameBytes then
    .error (invalidRole s!"role name must be at most {maxRoleNameBytes} bytes")
  else if value.trim ≠ value then
    .error (invalidRole "role name must not contain leading or trailing whitespace")
  else if value.any Text.isControl then
    .error (invalidRole "role name must not contain control characters")
  else if value.any Text.isWhitespace then
    .error (invalidRole "role name must not contain whitespace")
  else
    .ok ()

/-- The name of a role. -/
structure RoleName where
  text : Text
  valid : validateRoleName text = .ok ()
deriving DecidableEq

namespace RoleName

/-- `RoleName::new`. -/
def new (value : Text) : Except GroupError RoleName :=
  match h : validateRoleName value with
  | .error error => .error error
  | .ok () => .ok ⟨value, h⟩

/-- Names of roles are told apart by their texts. -/
theorem text_injective : Function.Injective RoleName.text := by
  intro ⟨a, ha⟩ ⟨b, hb⟩ hab
  cases hab
  rfl

instance : LinearOrder RoleName :=
  LinearOrder.lift' RoleName.text text_injective

/-- A text builds a role name exactly when it is the name's text. -/
theorem new_eq_ok {value : Text} {name : RoleName} : new value = .ok name ↔ name.text = value := by
  refine ⟨fun h => ?_, fun h => ?_⟩
  · unfold new at h
    split at h
    · cases h
    · cases h
      rfl
  · subst h
    unfold new
    split
    · next herror => simp [name.valid] at herror
    · rfl

/-- The text of a name is read as the name. -/
@[simp] theorem new_text (name : RoleName) : new name.text = .ok name :=
  new_eq_ok.mpr rfl

/-- A text builds a role name exactly when it passes the check. -/
theorem new_succeeds_iff {value : Text} :
    (new value).Succeeds ↔ validateRoleName value = .ok () :=
  ⟨fun ⟨name, h⟩ => new_eq_ok.mp h ▸ name.valid, fun h => ⟨⟨value, h⟩, new_eq_ok.mpr rfl⟩⟩

/-- The role that makes its holder an admin for good. -/
def permanentRelayOverride : RoleName :=
  ⟨"relay_owner".toList, by decide⟩

end RoleName

/-! ## Kinds of group events -/

@[match_pattern] abbrev kindGroupPutUser : Nat := 9000
@[match_pattern] abbrev kindGroupRemoveUser : Nat := 9001
@[match_pattern] abbrev kindGroupEditMetadata : Nat := 9002
@[match_pattern] abbrev kindGroupDeleteEvent : Nat := 9005
@[match_pattern] abbrev kindGroupCreateGroup : Nat := 9007
@[match_pattern] abbrev kindGroupDeleteGroup : Nat := 9008
@[match_pattern] abbrev kindGroupCreateInvite : Nat := 9009
@[match_pattern] abbrev kindGroupJoinRequest : Nat := 9021
@[match_pattern] abbrev kindGroupLeaveRequest : Nat := 9022
@[match_pattern] abbrev kindGroupMetadata : Nat := 39000
@[match_pattern] abbrev kindGroupAdmins : Nat := 39001
@[match_pattern] abbrev kindGroupMembers : Nat := 39002
@[match_pattern] abbrev kindGroupRoles : Nat := 39003
@[match_pattern] abbrev kindGroupState39004 : Nat := 39004

/-- The kinds of moderation events. -/
def nip29ModerationKindValues : List Nat :=
  [kindGroupPutUser, kindGroupRemoveUser, kindGroupEditMetadata, kindGroupDeleteEvent,
    kindGroupCreateGroup, kindGroupDeleteGroup, kindGroupCreateInvite]

/-- The kinds of the requests of users. -/
def nip29UserRequestKindValues : List Nat :=
  [kindGroupJoinRequest, kindGroupLeaveRequest]

/-- The kinds that the relay generates itself. -/
def nip29RelayGeneratedKindValues : List Nat :=
  [kindGroupMetadata, kindGroupAdmins, kindGroupMembers, kindGroupRoles,
    kindGroupState39004]

def isModerationKind (kind : Kind) : Bool := nip29ModerationKindValues.contains kind.value
def isUserRequestKind (kind : Kind) : Bool := nip29UserRequestKindValues.contains kind.value
def isRelayGeneratedKind (kind : Kind) : Bool :=
  nip29RelayGeneratedKindValues.contains kind.value

end Tangle
