import Tangle.Protocol.Scalars

/-!
# Configuration of the group engine

The limits and the policy a relay is started with. Each configuration is checked once, when it is
built; a value of `GroupRuntimeConfig` carries the proof that its settings passed.
-/

namespace Tangle

/-- A configuration that does not pass its checks. -/
structure GroupConfigError where
  message : String
deriving DecidableEq

/-- `GroupConfigError::invalid`. -/
def GroupConfigError.invalid (message : String) : GroupConfigError :=
  ⟨message⟩

/-- A number of the configuration that must be positive. -/
def requirePositive (field : String) (value : Nat) : Except GroupConfigError Unit :=
  if value = 0 then .error (.invalid s!"{field} must be greater than zero") else .ok ()

/-! ## Limits -/

/-- The bounds of the engine's lists and identifiers. -/
structure GroupLimitsConfig where
  maxGroupIdBytes : UInt16
  maxGroupTagsPerEvent : UInt16
  maxSupportedKinds : UInt16
  maxMemberListPubkeys : UInt32
  maxOutboxReplayBatch : UInt32
deriving DecidableEq

namespace GroupLimitsConfig

/-- `GroupLimitsConfig::validate`: no number is zero. -/
def validate (limits : GroupLimitsConfig) : Except GroupConfigError Unit := do
  requirePositive "groups.limits.max_group_id_bytes" limits.maxGroupIdBytes.toNat
  requirePositive "groups.limits.max_group_tags_per_event" limits.maxGroupTagsPerEvent.toNat
  requirePositive "groups.limits.max_supported_kinds" limits.maxSupportedKinds.toNat
  requirePositive "groups.limits.max_member_list_pubkeys" limits.maxMemberListPubkeys.toNat
  requirePositive "groups.limits.max_outbox_replay_batch" limits.maxOutboxReplayBatch.toNat

/-- `GroupLimitsConfig::default`. -/
def default : GroupLimitsConfig where
  maxGroupIdBytes := 128
  maxGroupTagsPerEvent := 8
  maxSupportedKinds := 512
  maxMemberListPubkeys := 100000
  maxOutboxReplayBatch := 1000

/-- The defaults pass their own checks. -/
theorem validate_default : default.validate = .ok () := by decide

end GroupLimitsConfig

/-! ## Policy -/

/-- Who may join, and whether invites are in use. -/
structure GroupPolicyConfig where
  publicJoin : Bool
  invitesEnabled : Bool
deriving DecidableEq

namespace GroupPolicyConfig

/-- `GroupPolicyConfig::strict`: nobody joins without being added. -/
def strict : GroupPolicyConfig :=
  ⟨false, false⟩

/-- `GroupPolicyConfig::validate`: invites are not supported. -/
def validate (policy : GroupPolicyConfig) : Except GroupConfigError Unit :=
  if policy.invitesEnabled then
    .error (.invalid
      "groups.policy.invites_enabled is not supported until invite flow is implemented")
  else
    .ok ()

end GroupPolicyConfig

/-- Policy and limits together. -/
structure GroupRuntimeSettingsConfig where
  policy : GroupPolicyConfig
  limits : GroupLimitsConfig
deriving DecidableEq

namespace GroupRuntimeSettingsConfig

/-- `GroupRuntimeSettingsConfig::strict`. -/
def strict : GroupRuntimeSettingsConfig :=
  ⟨.strict, .default⟩

/-- `GroupRuntimeSettingsConfig::validate`: the policy and then the limits. -/
def validate (settings : GroupRuntimeSettingsConfig) : Except GroupConfigError Unit := do
  settings.policy.validate
  settings.limits.validate

end GroupRuntimeSettingsConfig

/-! ## The relay's group configuration -/

/-- The relay's signing secret. -/
@[ext] structure RelaySecret where
  text : Text
  isHex : IsHex64 text

instance : DecidableEq RelaySecret := fun _ _ =>
  decidable_of_iff _ RelaySecret.ext_iff.symm

/-- What `GroupRuntimeConfig` holds. -/
structure GroupRuntimeConfigParts where
  enabled : Bool
  canonicalRelayUrl : Option Text
  relaySecret : Option RelaySecret
  ownerPubkeys : List PublicKeyHex
  adminPubkeys : List PublicKeyHex
  settings : GroupRuntimeSettingsConfig
deriving DecidableEq

/-- The checks a group configuration passes when it is built (`GroupRuntimeConfig::new`). -/
def GroupRuntimeConfigParts.validate (parts : GroupRuntimeConfigParts) :
    Except GroupConfigError Unit := do
  parts.settings.validate
  if parts.enabled && parts.canonicalRelayUrl.isNone then
    throw (.invalid "groups.canonical_relay_url is required when groups are enabled")
  if parts.enabled && parts.relaySecret.isNone then
    throw (.invalid "groups.relay_secret is required when groups are enabled")

/-- A group configuration, with the proof that its checks passed. -/
structure GroupRuntimeConfig extends GroupRuntimeConfigParts where
  valid : toGroupRuntimeConfigParts.validate = .ok ()

namespace GroupRuntimeConfig

def policy (config : GroupRuntimeConfig) : GroupPolicyConfig := config.settings.policy
def limits (config : GroupRuntimeConfig) : GroupLimitsConfig := config.settings.limits

end GroupRuntimeConfig

end Tangle
