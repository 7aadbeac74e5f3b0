import Tangle.Lib.Ordered
import Tangle.Groups.Ids

/-!
# Roles and capabilities

A role gives its holders capabilities. The permanent relay override is a role of its own that gives
all of them and needs no definition; any other role must be defined in the group.
-/

namespace Tangle

/-- What a holder of a role may do. -/
inductive Capability where
  | manageMembers | manageRoles | manageMetadata | deleteEvents | deleteGroup | createInvites
  | manageInvites | relayOverride
deriving DecidableEq

namespace Capability

/-- `Capability::ALL`. -/
def all : List Capability :=
  [.manageMembers, .manageRoles, .manageMetadata, .deleteEvents, .deleteGroup, .createInvites,
    .manageInvites, .relayOverride]

/-- `Capability::as_str`: the label of a capability. -/
def asStr : Capability → String
  | .manageMembers => "manage_members"
  | .manageRoles => "manage_roles"
  | .manageMetadata => "manage_metadata"
  | .deleteEvents => "delete_events"
  | .deleteGroup => "delete_group"
  | .createInvites => "create_invites"
  | .manageInvites => "manage_invites"
  | .relayOverride => "relay_override"

/-- `Capability::from_label`: any text that is no label is an error. -/
def fromLabel (value : String) : Except GroupError Capability :=
  match value with
  | "manage_members" => .ok .manageMembers
  | "manage_roles" => .ok .manageRoles
  | "manage_metadata" => .ok .manageMetadata
  | "delete_events" => .ok .deleteEvents
  | "delete_group" => .ok .deleteGroup
  | "create_invites" => .ok .createInvites
  | "manage_invites" => .ok .manageInvites
  | "relay_override" => .ok .relayOverride
  | _ => .error (.invalid .missingCapability s!"unknown group capability {value}")

/-- A capability is read back from its label. -/
@[simp] theorem fromLabel_asStr (capability : Capability) :
    fromLabel capability.asStr = .ok capability := by
  cases capability <;> rfl

/-- The place of a capability in the declaration, which orders a set of them. -/
def index : Capability → Nat
  | .manageMembers => 0
  | .manageRoles => 1
  | .manageMetadata => 2
  | .deleteEvents => 3
  | .deleteGroup => 4
  | .createInvites => 5
  | .manageInvites => 6
  | .relayOverride => 7

/-- No two capabilities have the same place in the order. -/
theorem index_injective : Function.Injective index := by
  intro a b h
  cases a <;> cases b <;> first | rfl | cases h

instance : LinearOrder Capability :=
  LinearOrder.lift' index index_injective

end Capability

/-- A set of capabilities. -/
abbrev CapabilitySet : Type := BTreeSet Capability

namespace CapabilitySet

/-- `CapabilitySet::new`. -/
def new (capabilities : List Capability) : CapabilitySet :=
  .ofList capabilities compare

/-- `permanent_relay_override`: every capability. -/
def permanentRelayOverride : CapabilitySet :=
  new Capability.all

/-- `labels`: the capabilities in order, as their labels. -/
def labels (capabilities : CapabilitySet) : List String :=
  capabilities.toList.map Capability.asStr

/-- `from_labels`: every label must be one. -/
def fromLabels (labels : List String) : Except GroupError CapabilitySet := do
  return new (← labels.mapM Capability.fromLabel)

/-- `extend_from`: the capabilities of both. -/
def extendFrom (capabilities other : CapabilitySet) : CapabilitySet :=
  other.toList.foldl (fun set capability => set.insert capability) capabilities

/-- A set of capabilities is read back from its labels. -/
@[simp] theorem fromLabels_labels (capabilities : CapabilitySet) :
    fromLabels capabilities.labels = .ok capabilities := by
  have hmap : ∀ l : List Capability, (l.map Capability.asStr).mapM Capability.fromLabel =
      .ok l := by
    intro l
    rw [Except.mapM_eq_ok, List.forall₂_map_left_iff]
    exact List.forall₂_same.mpr fun c _ => Capability.fromLabel_asStr c
  simp only [fromLabels, labels, hmap, Except.ok_bind, new, BTreeSet.ofList_toList]
  rfl

end CapabilitySet

/-- A role of a group. -/
structure RoleDefinition where
  name : RoleName
  capabilities : CapabilitySet
  description : Option Text

/-- `is_permanent_relay_override`: the name that the relay's own role has. -/
def RoleName.isPermanentRelayOverride (name : RoleName) : Bool :=
  name == RoleName.permanentRelayOverride

/-- The capabilities that a list of roles gives, under the definitions of the group. -/
def resolveCapabilities (definitions : List RoleDefinition) (roles : List RoleName) :
    Except GroupError CapabilitySet :=
  let definitions : BTreeMap RoleName RoleDefinition :=
    definitions.foldl (fun map definition => map.insert definition.name definition) ∅
  roles.foldlM (fun resolved role =>
    if role.isPermanentRelayOverride then
      .ok (resolved.extendFrom .permanentRelayOverride)
    else
      match definitions[role]? with
      | none =>
        .error (.restricted .missingCapability s!"unknown group role {role.text.toMessage}")
      | some definition => .ok (resolved.extendFrom definition.capabilities)) (∅ : CapabilitySet)

end Tangle
