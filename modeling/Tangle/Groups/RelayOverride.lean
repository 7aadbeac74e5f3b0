import Tangle.Groups.Policy

/-!
# Whom the relay override helps

Resolving the roles of a member stops at the first role the group does not define, whatever the
other roles give. So a member who holds the relay override has every capability exactly when the
other roles it holds are defined, and a role that is not defined takes from its holder what the
other roles gave (`relayOverride_grants_iff`).
-/

namespace Tangle

/-- The definition of a role among those of a group, the last one of its name. -/
def definitionOf (definitions : List RoleDefinition) (role : RoleName) : Option RoleDefinition :=
  (definitions.foldl (fun map definition => map.insert definition.name definition)
    (∅ : BTreeMap RoleName RoleDefinition))[role]?

/-- A role that can be resolved: the relay override, or one of the defined roles. -/
def Resolvable (definitions : List RoleDefinition) (role : RoleName) : Prop :=
  role.isPermanentRelayOverride ∨ ∃ definition ∈ definitions, definition.name = role

/-- What a role gives by itself. -/
def RoleGives (definitions : List RoleDefinition) (role : RoleName) (capability : Capability) :
    Prop :=
  role.isPermanentRelayOverride ∨
    ∃ definition, definitionOf definitions role = some definition ∧
      capability ∈ definition.capabilities

/-- A list of roles gives a capability when it is resolved to a set with it. -/
def Grants (definitions : List RoleDefinition) (roles : List RoleName) (capability : Capability) :
    Prop :=
  ∃ capabilities, resolveCapabilities definitions roles = .ok capabilities ∧
    capability ∈ capabilities

/-- A capability is among two sets together exactly when it is in one of them. -/
theorem CapabilitySet.mem_extendFrom {capabilities other : CapabilitySet}
    {capability : Capability} :
    capability ∈ capabilities.extendFrom other ↔
      capability ∈ capabilities ∨ capability ∈ other := by
  have hfold : ∀ (added : List Capability) (capabilities : CapabilitySet),
      capability ∈ added.foldl (fun set capability => set.insert capability) capabilities ↔
        capability ∈ capabilities ∨ capability ∈ added := by
    intro added
    induction added with
    | nil => simp
    | cons first added ih =>
      intro capabilities
      rw [List.foldl_cons, ih, BTreeSet.mem_insert, List.mem_cons, eq_comm]
      tauto
  rw [extendFrom, hfold, BTreeSet.mem_toList]

/-- The relay's own role has every capability. -/
theorem CapabilitySet.mem_permanentRelayOverride (capability : Capability) :
    capability ∈ permanentRelayOverride := by
  rw [permanentRelayOverride, new, BTreeSet.mem_ofList]
  cases capability <;> decide

/-- A role is found among the definitions when one of them has its name. -/
theorem definitionOf_isSome {definitions : List RoleDefinition} {role : RoleName} :
    (definitionOf definitions role).isSome ↔
      ∃ definition ∈ definitions, definition.name = role := by
  have hfold : ∀ (added : List RoleDefinition) (map : BTreeMap RoleName RoleDefinition),
      ((added.foldl (fun map definition => map.insert definition.name definition)
        map)[role]?).isSome ↔
        (map[role]?).isSome ∨ ∃ definition ∈ added, definition.name = role := by
    intro added
    induction added with
    | nil => simp
    | cons first added ih =>
      intro map
      rw [List.foldl_cons, ih, BTreeMap.getElem?_insert, List.exists_mem_cons_iff]
      split
      · next hname => simp [hname]
      · next hname => simp [hname]
  rw [definitionOf, hfold]
  simp

section

variable {definitions : List RoleDefinition} {roles : List RoleName} {role : RoleName}
  {capability : Capability}

/-- The resolution of one role after others. -/
def resolveRole (definitions : List RoleDefinition) (resolved : CapabilitySet) (role : RoleName) :
    Except GroupError CapabilitySet :=
  if role.isPermanentRelayOverride then
    .ok (resolved.extendFrom .permanentRelayOverride)
  else
    match definitionOf definitions role with
    | none => .error (.restricted .missingCapability s!"unknown group role {role.text.toMessage}")
    | some definition => .ok (resolved.extendFrom definition.capabilities)

/-- A role that can be resolved adds what it gives. -/
theorem resolveRole_of_resolvable (resolved : CapabilitySet) (h : Resolvable definitions role) :
    ∃ next, resolveRole definitions resolved role = .ok next ∧
      ∀ capability, capability ∈ next ↔
        capability ∈ resolved ∨ RoleGives definitions role capability := by
  unfold resolveRole RoleGives
  by_cases howner : role.isPermanentRelayOverride
  · rw [if_pos howner]
    refine ⟨_, rfl, fun capability => ?_⟩
    rw [CapabilitySet.mem_extendFrom]
    exact or_congr_right
      (iff_of_true (CapabilitySet.mem_permanentRelayOverride capability) (.inl howner))
  · rw [if_neg howner]
    have hsome := definitionOf_isSome.mpr (h.resolve_left howner)
    obtain ⟨definition, hdefinition⟩ := Option.isSome_iff_exists.mp hsome
    rw [hdefinition]
    refine ⟨_, rfl, fun capability => ?_⟩
    rw [CapabilitySet.mem_extendFrom]
    refine or_congr_right ⟨fun hin => .inr ⟨definition, rfl, hin⟩, fun hgives => ?_⟩
    obtain ⟨found, heq, hin⟩ := hgives.resolve_left howner
    cases heq
    exact hin

/-- A role that is resolved can be. -/
theorem resolvable_of_resolveRole {resolved next : CapabilitySet}
    (h : resolveRole definitions resolved role = .ok next) : Resolvable definitions role := by
  unfold resolveRole at h
  split at h
  · next howner => exact .inl howner
  · split at h
    · cases h
    · next definition hdefinition =>
      exact .inr (definitionOf_isSome.mp (by rw [hdefinition]; rfl))

/-- Roles that can be resolved are, to what each of them gives. -/
theorem resolveCapabilities_succeeds (h : ∀ role ∈ roles, Resolvable definitions role) :
    ∃ capabilities, resolveCapabilities definitions roles = .ok capabilities ∧
      ∀ capability, capability ∈ capabilities ↔
        ∃ role ∈ roles, RoleGives definitions role capability := by
  have hfold : ∀ (roles : List RoleName) (resolved : CapabilitySet),
      (∀ role ∈ roles, Resolvable definitions role) →
      ∃ capabilities, roles.foldlM (resolveRole definitions) resolved = .ok capabilities ∧
        ∀ capability, capability ∈ capabilities ↔
          capability ∈ resolved ∨ ∃ role ∈ roles, RoleGives definitions role capability := by
    intro roles
    induction roles with
    | nil => exact fun resolved _ => ⟨resolved, rfl, by simp⟩
    | cons role roles ih =>
      intro resolved h
      obtain ⟨next, hnext, hgives⟩ :=
        resolveRole_of_resolvable resolved (h role (List.mem_cons_self ..))
      obtain ⟨capabilities, hrest, hall⟩ :=
        ih next fun role hrole => h role (List.mem_cons_of_mem _ hrole)
      refine ⟨capabilities, Except.foldlM_cons_ok.mpr ⟨next, hnext, hrest⟩, fun capability => ?_⟩
      rw [hall, hgives, List.exists_mem_cons_iff, or_assoc]
  obtain ⟨capabilities, hresolved, hall⟩ := hfold roles ∅ h
  refine ⟨capabilities, hresolved, fun capability => (hall capability).trans ?_⟩
  exact or_iff_right BTreeSet.not_mem_empty

/-- Roles are resolved only when each of them can be. -/
theorem resolvable_of_succeeds (h : (resolveCapabilities definitions roles).Succeeds) :
    ∀ role ∈ roles, Resolvable definitions role := by
  obtain ⟨capabilities, hresolved⟩ := h
  intro role hrole
  obtain ⟨resolved, next, hnext⟩ := Except.foldlM_steps hresolved role hrole
  exact resolvable_of_resolveRole hnext

/-- Roles give a capability when all of them can be resolved and one gives it. -/
theorem grants_iff : Grants definitions roles capability ↔
    (∀ role ∈ roles, Resolvable definitions role) ∧
      ∃ role ∈ roles, RoleGives definitions role capability := by
  constructor
  · rintro ⟨capabilities, hresolved, hin⟩
    have hall := resolvable_of_succeeds ⟨capabilities, hresolved⟩
    obtain ⟨resolved, heq, hgives⟩ := resolveCapabilities_succeeds hall
    cases hresolved.symm.trans heq
    exact ⟨hall, (hgives capability).mp hin⟩
  · rintro ⟨hall, hgives⟩
    obtain ⟨resolved, heq, hin⟩ := resolveCapabilities_succeeds hall
    exact ⟨resolved, heq, (hin capability).mpr hgives⟩

end

/-! ## The override -/

/-- Roles with the relay override among them give every capability when all can be resolved. -/
theorem resolves_to_all_iff {definitions : List RoleDefinition} {roles : BTreeSet RoleName}
    (howner : RoleName.permanentRelayOverride ∈ roles) :
    resolveCapabilities definitions roles.toList = .ok CapabilitySet.permanentRelayOverride ↔
      ∀ role ∈ roles, Resolvable definitions role := by
  refine ⟨fun h role hrole => ?_, fun h => ?_⟩
  · exact resolvable_of_succeeds ⟨_, h⟩ role (BTreeSet.mem_toList.mpr hrole)
  · obtain ⟨capabilities, hresolved, hgives⟩ := resolveCapabilities_succeeds
      fun role hrole => h role (BTreeSet.mem_toList.mp hrole)
    rw [hresolved]
    refine congrArg Except.ok (BTreeSet.ext fun capability => ?_)
    rw [hgives]
    refine iff_of_true ⟨_, BTreeSet.mem_toList.mpr howner, .inl rfl⟩ ?_
    exact CapabilitySet.mem_permanentRelayOverride capability

/-- A role of a set takes no capability from its holder when it can be resolved, or when there is
nothing to take. -/
theorem insert_keeps_iff {definitions : List RoleDefinition} {roles : BTreeSet RoleName}
    {role : RoleName} :
    (∀ capability, Grants definitions roles.toList capability →
      Grants definitions (roles.insert role).toList capability) ↔
      Resolvable definitions role ∨ (∃ held ∈ roles, ¬ Resolvable definitions held) ∨
        ∀ held ∈ roles, ∀ capability, ¬ RoleGives definitions held capability := by
  have hmem : ∀ held, held ∈ (roles.insert role).toList ↔ role = held ∨ held ∈ roles :=
    fun held => BTreeSet.mem_toList.trans BTreeSet.mem_insert
  refine ⟨fun h => ?_, fun h capability hgrants => ?_⟩
  · by_cases hrole : Resolvable definitions role
    · exact .inl hrole
    by_cases hheld : ∃ held ∈ roles, ¬ Resolvable definitions held
    · exact .inr (.inl hheld)
    refine .inr (.inr fun held hin capability hgives => hrole ?_)
    have hgrants : Grants definitions roles.toList capability := by
      refine grants_iff.mpr ⟨fun other hother => ?_, held, BTreeSet.mem_toList.mpr hin, hgives⟩
      by_contra hnot
      exact hheld ⟨other, BTreeSet.mem_toList.mp hother, hnot⟩
    exact (grants_iff.mp (h capability hgrants)).1 role ((hmem role).mpr (.inl rfl))
  · obtain ⟨hall, held, hin, hgives⟩ := grants_iff.mp hgrants
    rcases h with hrole | ⟨other, hother, hnot⟩ | hnone
    · refine grants_iff.mpr ⟨fun other hother => ?_, held, ?_, hgives⟩
      · rcases (hmem other).mp hother with rfl | hother
        · exact hrole
        · exact hall other (BTreeSet.mem_toList.mpr hother)
      · exact (hmem held).mpr (.inr (BTreeSet.mem_toList.mp hin))
    · exact absurd (hall other (BTreeSet.mem_toList.mpr hother)) hnot
    · exact absurd hgives (hnone held (BTreeSet.mem_toList.mp hin) capability)

/-- The roles a group defines. -/
def GroupProjection.definitions (projection : GroupProjection) (groupId : GroupId) :
    List RoleDefinition :=
  (projection.roles.toList.filter fun entry => (ofLex entry.1).1 == groupId).map fun entry =>
    entry.2.definition

/-- Whom the relay override makes capable of everything: the relay's admins, and those whose other
roles the group defines. -/
theorem GroupWritePolicy.override_capable_iff {policy : GroupWritePolicy} {groupId : GroupId}
    {pubkey : PublicKeyHex} (h : policy.hasRelayOverride groupId pubkey) :
    (∀ capability, policy.requireCapability groupId pubkey capability = .ok ()) ↔
      policy.authority.isAdmin pubkey ∨
        ∀ member, policy.projection.member groupId pubkey = some member →
          ∀ role ∈ member.roles, Resolvable (policy.projection.definitions groupId) role := by
  unfold hasRelayOverride at h
  unfold requireCapability
  by_cases hadmin : policy.authority.isAdmin pubkey
  · simp only [hadmin, if_true, true_or, iff_true]
    exact fun _ => rfl
  rw [if_neg hadmin] at h
  obtain ⟨member, hmember, howner⟩ := (Option.any_eq_true _ _).mp h
  obtain ⟨hmember, hstatus⟩ := Option.filter_eq_some_iff.mp hmember
  rw [beq_iff_eq] at hstatus
  have hresolve : policy.actorCapabilities groupId pubkey =
      resolveCapabilities (policy.projection.definitions groupId) member.roles.toList := by
    unfold actorCapabilities
    rw [hmember]
    exact if_neg (not_not_intro hstatus)
  have howner : RoleName.permanentRelayOverride ∈ member.roles :=
    Std.ExtTreeSet.mem_iff_contains.mpr howner
  simp only [hadmin, hresolve, Bool.false_eq_true, if_false, false_or]
  refine ⟨fun hall found hfound => ?_, fun hall capability => ?_⟩
  · cases hmember.symm.trans hfound
    obtain ⟨capabilities, hresolved, -⟩ := Except.bind_eq_ok.mp (hall .deleteGroup)
    exact fun role hrole =>
      resolvable_of_succeeds ⟨_, hresolved⟩ role (BTreeSet.mem_toList.mpr hrole)
  · have hcontains : CapabilitySet.permanentRelayOverride.contains capability = true :=
      Std.ExtTreeSet.mem_iff_contains.mp (CapabilitySet.mem_permanentRelayOverride capability)
    rw [(resolves_to_all_iff howner).mpr (hall member hmember), Except.ok_bind, if_pos hcontains]
    rfl

/-- The relay override gives a member every capability when the group defines its other roles, and a
role takes nothing from its holder when the group defines it. -/
theorem relayOverride_grants_iff (definitions : List RoleDefinition) (roles : BTreeSet RoleName)
    (role : RoleName) (policy : GroupWritePolicy) (groupId : GroupId) (pubkey : PublicKeyHex) :
    (RoleName.permanentRelayOverride ∈ roles →
      (resolveCapabilities definitions roles.toList = .ok CapabilitySet.permanentRelayOverride ↔
        ∀ role ∈ roles, Resolvable definitions role)) ∧
    (policy.hasRelayOverride groupId pubkey →
      ((∀ capability, policy.requireCapability groupId pubkey capability = .ok ()) ↔
        policy.authority.isAdmin pubkey ∨
          ∀ member, policy.projection.member groupId pubkey = some member →
            ∀ role ∈ member.roles, Resolvable (policy.projection.definitions groupId) role)) ∧
    ((∀ capability, Grants definitions roles.toList capability →
        Grants definitions (roles.insert role).toList capability) ↔
      Resolvable definitions role ∨ (∃ held ∈ roles, ¬ Resolvable definitions held) ∨
        ∀ held ∈ roles, ∀ capability, ¬ RoleGives definitions held capability) := by
  refine ⟨resolves_to_all_iff, fun h => ?_, insert_keeps_iff⟩
  exact GroupWritePolicy.override_capable_iff h

namespace Sample

/-- A role of the sample, beside the relay's own. -/
def moderator : RoleName :=
  ⟨"moderator".toList, by decide⟩

/-- The relay's own role alone. -/
def overrideOnly : BTreeSet RoleName :=
  (∅ : BTreeSet RoleName).insert RoleName.permanentRelayOverride

/-- The relay override and a role that a group may define or not. -/
def overrideAndModerator : BTreeSet RoleName :=
  overrideOnly.insert moderator

/-- The definition of that role. -/
def moderatorDefinition : RoleDefinition :=
  ⟨moderator, .new [.deleteEvents], none⟩

/-- The group of the sample. -/
def garden : GroupId :=
  ⟨"garden".toList, ((@validateGroupId_eq_ok _ maxGroupIdBytes).mp (by decide)).1⟩

/-- A member of that group. -/
def gardener : PublicKeyHex :=
  .repeated 'a' (Eq.refl true)

/-- What the projection keeps of the member, with both roles. -/
def gardenerState : MemberState :=
  ⟨gardener, .member, overrideAndModerator, .repeated 'e' (Eq.refl true),
    ⟨0, .repeated 'e' (Eq.refl true), 8⟩⟩

/-- A group whose one member holds both roles, on a relay without admins. -/
def overridePolicy : GroupWritePolicy where
  projection := { GroupProjection.new with
    members := (∅ : BTreeMap (GroupId ×ₗ PublicKeyHex) MemberState).insert
      (toLex (garden, gardener)) gardenerState }
  authority := .new [] []
  policy := .strict

/-- The group with the second role defined. -/
def definedPolicy : GroupWritePolicy :=
  { overridePolicy with
    projection := { overridePolicy.projection with
      roles :=
        (∅ : BTreeMap (GroupId ×ₗ RoleName) ProjectedRoleDefinition).insert
        (toLex (garden, moderator))
        ⟨moderatorDefinition, .repeated 'e' (Eq.refl true),
          ⟨0, .repeated 'e' (Eq.refl true), 8⟩⟩ } }

end Sample

/-- A group that defines the second of the two roles its member holds: the member can do everything,
and the second role takes nothing away. -/
theorem relayOverride_grants_iff_defined :
    resolveCapabilities [Sample.moderatorDefinition] Sample.overrideAndModerator.toList =
      .ok CapabilitySet.permanentRelayOverride ∧
    (∀ capability, Sample.definedPolicy.requireCapability Sample.garden Sample.gardener capability =
      .ok ()) ∧
    ∀ capability, Grants [Sample.moderatorDefinition] Sample.overrideOnly.toList capability →
      Grants [Sample.moderatorDefinition] Sample.overrideAndModerator.toList capability := by
  have hresolvable : ∀ role ∈ Sample.overrideAndModerator,
      Resolvable [Sample.moderatorDefinition] role := by
    intro role hrole
    rcases BTreeSet.mem_insert.mp hrole with rfl | hrole
    · exact .inr ⟨_, List.mem_singleton_self _, rfl⟩
    · rcases BTreeSet.mem_insert.mp hrole with rfl | hrole
      · exact .inl rfl
      · exact absurd hrole BTreeSet.not_mem_empty
  have howner : RoleName.permanentRelayOverride ∈ Sample.overrideAndModerator :=
    BTreeSet.mem_insert.mpr (.inr (BTreeSet.mem_insert.mpr (.inl rfl)))
  have hmember : Sample.definedPolicy.projection.member Sample.garden Sample.gardener =
      some Sample.gardenerState := BTreeMap.getElem?_insert_self
  have hoverride : Sample.definedPolicy.hasRelayOverride Sample.garden Sample.gardener := by
    unfold GroupWritePolicy.hasRelayOverride
    rw [hmember]
    decide +kernel
  have hdefinitions : Sample.definedPolicy.projection.definitions Sample.garden =
      [Sample.moderatorDefinition] :=
    rfl
  have hwhole := relayOverride_grants_iff [Sample.moderatorDefinition] Sample.overrideAndModerator
    Sample.moderator Sample.definedPolicy Sample.garden Sample.gardener
  have hadded := (relayOverride_grants_iff [Sample.moderatorDefinition] Sample.overrideOnly
    Sample.moderator Sample.definedPolicy Sample.garden Sample.gardener).2.2
  refine ⟨(hwhole.1 howner).mpr hresolvable, (hwhole.2.1 hoverride).mpr (.inr ?_),
    hadded.mpr (.inl (hresolvable _ (BTreeSet.mem_insert.mpr (.inl rfl))))⟩
  intro member hheld role hrole
  cases hmember.symm.trans hheld
  rw [hdefinitions]
  exact hresolvable role hrole

/-- A member who holds the relay override and a role that the group does not define has no
capability at all: the first role that cannot be resolved ends the resolution of all. -/
theorem override_lost :
    Sample.overridePolicy.hasRelayOverride Sample.garden Sample.gardener ∧
      (∀ capability, ¬ Grants [] Sample.overrideAndModerator.toList capability) ∧
      ¬ ∀ capability, Sample.overridePolicy.requireCapability Sample.garden Sample.gardener
        capability = .ok () := by
  have hnone : ¬ Resolvable [] Sample.moderator := by
    rintro (howner | ⟨definition, hin, -⟩)
    · exact absurd howner (by decide)
    · exact (nomatch hin)
  have hheld : Sample.moderator ∈ Sample.overrideAndModerator :=
    BTreeSet.mem_insert.mpr (.inl rfl)
  have hmember : Sample.overridePolicy.projection.member Sample.garden Sample.gardener =
      some Sample.gardenerState := BTreeMap.getElem?_insert_self
  have hoverride : Sample.overridePolicy.hasRelayOverride Sample.garden Sample.gardener := by
    unfold GroupWritePolicy.hasRelayOverride
    rw [hmember]
    decide +kernel
  refine ⟨hoverride, fun capability hgrants => ?_, fun hall => ?_⟩
  · exact hnone ((grants_iff.mp hgrants).1 Sample.moderator (BTreeSet.mem_toList.mpr hheld))
  · rcases (GroupWritePolicy.override_capable_iff hoverride).mp hall with hadmin | hroles
    · exact absurd hadmin (by decide +kernel)
    · exact hnone (hroles _ hmember Sample.moderator hheld)

end Tangle
