/-!
# Errors of the group engine

A group error carries what went wrong, the prefix a reply to the client starts with, and a message.
The relay's own errors carry a prefix and a message only; a group error becomes one by spelling its
prefixed message under the prefix `error`.
-/

namespace Tangle

/-- The machine-readable prefix of a reply. -/
inductive GroupReplyPrefix where
  | duplicate | blocked | rateLimited | invalid | restricted | authRequired | error
deriving DecidableEq

/-- `GroupReplyPrefix::as_str`: the word before the colon of a reply. -/
def GroupReplyPrefix.asStr : GroupReplyPrefix → String
  | .duplicate => "duplicate"
  | .blocked => "blocked"
  | .rateLimited => "rate-limited"
  | .invalid => "invalid"
  | .restricted => "restricted"
  | .authRequired => "auth-required"
  | .error => "error"

/-- What a group check found wrong. -/
inductive GroupErrorKind where
  | invalidGroupId | malformedGroupTag | missingGroupTag | conflictingGroupTag | tooManyGroupTags
  | unsupportedGroupKind | directRelayGeneratedSubmission | missingTargetTag | malformedTargetTag
  | metadataTooLarge | tooManySupportedKinds | invalidRole | missingCapability
  | authenticationRequired | groupUnavailable | groupDeleted | groupAlreadyExists
  | duplicateMember | internal
deriving DecidableEq

/-- An error of the group engine. -/
structure GroupError where
  kind : GroupErrorKind
  replyPrefix : GroupReplyPrefix
  message : String
deriving DecidableEq

namespace GroupError

/-- `GroupError::invalid`. -/
def invalid (kind : GroupErrorKind) (message : String) : GroupError :=
  ⟨kind, .invalid, message⟩

/-- `GroupError::duplicate`. -/
def duplicate (kind : GroupErrorKind) (message : String) : GroupError :=
  ⟨kind, .duplicate, message⟩

/-- `GroupError::blocked`. -/
def blocked (kind : GroupErrorKind) (message : String) : GroupError :=
  ⟨kind, .blocked, message⟩

/-- `GroupError::restricted`. -/
def restricted (kind : GroupErrorKind) (message : String) : GroupError :=
  ⟨kind, .restricted, message⟩

/-- `GroupError::auth_required`. -/
def authRequired (message : String) : GroupError :=
  ⟨.authenticationRequired, .authRequired, message⟩

/-- `GroupError::internal`. -/
def internal (message : String) : GroupError :=
  ⟨.internal, .error, message⟩

/-- `prefixed_message`: the prefix of the kind, a colon, and the message. -/
def prefixedMessage (error : GroupError) : String :=
  s!"{error.replyPrefix.asStr}: {error.message}"

end GroupError

/-- An error of the relay around the group engine. -/
structure BaseRelayError where
  replyPrefix : String
  message : String
deriving DecidableEq

namespace BaseRelayError

/-- `BaseRelayError::invalid`. -/
def invalid (message : String) : BaseRelayError :=
  ⟨"invalid", message⟩

/-- `BaseRelayError::error`. -/
def error (message : String) : BaseRelayError :=
  ⟨"error", message⟩

/-- `prefixed_message`: the prefix, a colon, and the message. -/
def prefixedMessage (error : BaseRelayError) : String :=
  s!"{error.replyPrefix}: {error.message}"

/-- A group error as the relay passes it on (`impl From<GroupError> for BaseRelayError`). -/
def ofGroup (error : GroupError) : BaseRelayError :=
  .error error.prefixedMessage

end BaseRelayError

end Tangle
