import Tangle.Groups.Arrival
import Tangle.Groups.Membership
import Tangle.Runtime.Storage

/-!
# The rows of the projection table

Every entry of the projection has a key of its own in the projection table, and the parts of a key
are read off its text again (`ProjectionKey.splitNul_text`). `HoldsRows row rows` says that the
table holds at each key what `row` says and nothing else, where `row` is usually that of a
projection (`GroupProjection.row`). Loading a table that holds the rows of a projection gives the
projection back, when its group ids are short enough to be read (`load_of_holdsRows`,
`loads_of_shortIds`).
-/

namespace Tangle

/-! ## Keys -/

/-- The name of an entry of the projection. -/
inductive ProjectionKey where
  | group (groupId : GroupId)
  | member (groupId : GroupId) (pubkey : PublicKeyHex)
  | role (groupId : GroupId) (roleName : RoleName)
  | tombstone (groupId : GroupId)
  | eventDeletion (eventId : EventId)
deriving DecidableEq

namespace ProjectionKey

/-- The key of the entry's row. -/
def text : ProjectionKey → Text
  | group groupId => groupCurrentKey groupId
  | member groupId pubkey => memberCurrentKey groupId pubkey
  | role groupId roleName => roleCurrentKey groupId roleName
  | tombstone groupId => tombstoneKey groupId
  | eventDeletion eventId => eventDeletionKey eventId

/-- The parts of the key. -/
def parts : ProjectionKey → List Text
  | group groupId => ["group".toList, groupId.text]
  | member groupId pubkey => ["member".toList, groupId.text, pubkey.text]
  | role groupId roleName => ["role".toList, groupId.text, roleName.text]
  | tombstone groupId => ["tombstone".toList, groupId.text]
  | eventDeletion eventId => ["event_deletion".toList, eventId.text]

/-- No NUL stands in sixty-four hex digits. -/
theorem nul_not_mem_hex {scalar : String} (id : Hex64 scalar) : '\x00' ∉ id.text := by
  intro h
  have hhex : isLowercaseHex '\x00' = true := List.all_eq_true.mp id.isHex.2 _ h
  exact absurd hhex (by decide)

/-- No NUL stands in a role's name: the name is valid, and a valid one has no control character. -/
theorem nul_not_mem_roleName (name : RoleName) : '\x00' ∉ name.text := by
  intro h
  have hvalid := name.valid
  unfold validateRoleName at hvalid
  have hcontrol : name.text.any Text.isControl = true :=
    List.any_eq_true.mpr ⟨_, h, by decide⟩
  simp only [hcontrol, if_true] at hvalid
  split at hvalid
  · cases hvalid
  split at hvalid
  · cases hvalid
  split at hvalid
  · cases hvalid
  · cases hvalid

/-- The parts of a key are read off its text. -/
theorem splitNul_text (key : ProjectionKey) : splitNul key.text = key.parts := by
  have hone : ∀ {table : String} {first : Text}, '\x00' ∉ table.toList → '\x00' ∉ first →
      splitNul (prefixedKey table first none) = [table.toList, first] := by
    intro table first htable hfirst
    unfold prefixedKey
    rw [Option.elim_none, List.append_nil, splitNul_append htable, splitNul_of_not_mem hfirst]
  have htwo : ∀ {table : String} {first second : Text}, '\x00' ∉ table.toList → '\x00' ∉ first →
      '\x00' ∉ second → splitNul (prefixedKey table first (some second)) =
        [table.toList, first, second] := by
    intro table first second htable hfirst hsecond
    have hassoc : prefixedKey table first (some second) =
        table.toList ++ '\x00' :: (first ++ '\x00' :: second) := by
      simp [prefixedKey]
    rw [hassoc, splitNul_append htable, splitNul_append hfirst, splitNul_of_not_mem hsecond]
  cases key with
  | group groupId => exact hone (by decide) groupId.nul_not_mem
  | member groupId pubkey => exact htwo (by decide) groupId.nul_not_mem (nul_not_mem_hex pubkey)
  | role groupId roleName =>
    exact htwo (by decide) groupId.nul_not_mem (nul_not_mem_roleName roleName)
  | tombstone groupId => exact hone (by decide) groupId.nul_not_mem
  | eventDeletion eventId => exact hone (by decide) (nul_not_mem_hex eventId)

/-- The parts of a key name its entry, the first of them its kind. -/
theorem parts_injective : Function.Injective parts := by
  intro a b h
  cases a <;> cases b <;> simp only [parts, List.cons.injEq, and_true] at h
  case group.group => exact congrArg group (GroupId.text_injective h.2)
  case member.member =>
    rw [GroupId.text_injective h.2.1, Hex64.text_injective h.2.2]
  case role.role => rw [GroupId.text_injective h.2.1, RoleName.text_injective h.2.2]
  case tombstone.tombstone => exact congrArg tombstone (GroupId.text_injective h.2)
  case eventDeletion.eventDeletion => exact congrArg eventDeletion (Hex64.text_injective h.2)
  all_goals exact absurd h.1 (by decide)

/-- Entries of different names have different rows. -/
theorem text_injective : Function.Injective text := by
  intro a b h
  exact parts_injective ((splitNul_text a).symm.trans
    ((congrArg splitNul h).trans (splitNul_text b)))

end ProjectionKey

/-! ## Tables -/

/-- The row of an entry of the projection. -/
def GroupProjection.row (projection : GroupProjection) : ProjectionKey → Option ExtraValue
  | .group groupId => (projection.group groupId).map GroupState.toJsonBytes
  | .member groupId pubkey => (projection.member groupId pubkey).map MemberState.toJsonBytes
  | .role groupId roleName =>
    projection.roles[toLex (groupId, roleName)]?.map ProjectedRoleDefinition.toJsonBytes
  | .tombstone groupId => (projection.tombstone groupId).map GroupTombstone.toJsonBytes
  | .eventDeletion eventId =>
    (projection.eventDeletion eventId).map GroupEventDeletion.toJsonBytes

/-- The table holds at each key what `row` says, and nothing else. -/
structure HoldsRows (row : ProjectionKey → Option ExtraValue) (rows : BTreeMap Text ExtraValue) :
    Prop where
  lookup : ∀ key : ProjectionKey, rows[key.text]? = row key
  named : ∀ (text : Text) (value : ExtraValue), rows[text]? = some value →
    ∃ key : ProjectionKey, key.text = text

namespace HoldsRows

variable {row row' : ProjectionKey → Option ExtraValue} {rows : BTreeMap Text ExtraValue}

/-- An empty table holds no rows. -/
theorem empty : HoldsRows (fun _ => none) ∅ where
  lookup key := by simp
  named text value h := by simp at h

/-- What a table holds depends on the rows alone. -/
theorem congr (h : HoldsRows row rows) (heq : ∀ key, row key = row' key) : HoldsRows row' rows :=
  ⟨fun key => (h.lookup key).trans (heq key), h.named⟩

/-- A row inserted under an entry's key is held, beside the others. -/
theorem insert (h : HoldsRows row rows) (key : ProjectionKey) (value : ExtraValue) :
    HoldsRows (Function.update row key (some value)) (rows.insert key.text value) where
  lookup other := by
    rw [BTreeMap.getElem?_insert]
    by_cases heq : key = other
    · subst heq
      rw [if_pos rfl, Function.update_self]
    · rw [if_neg fun htext => heq (ProjectionKey.text_injective htext),
        Function.update_of_ne (Ne.symm heq), h.lookup]
  named text found hfound := by
    rw [BTreeMap.getElem?_insert] at hfound
    split at hfound
    · next heq => exact ⟨key, heq⟩
    · exact h.named text found hfound

/-- A row erased under an entry's key is gone, and the others are held. -/
theorem erase (h : HoldsRows row rows) (key : ProjectionKey) :
    HoldsRows (Function.update row key none) (rows.erase key.text) where
  lookup other := by
    rw [BTreeMap.getElem?_erase]
    by_cases heq : key = other
    · subst heq
      rw [if_pos rfl, Function.update_self]
    · rw [if_neg fun htext => heq (ProjectionKey.text_injective htext),
        Function.update_of_ne (Ne.symm heq), h.lookup]
  named text found hfound := by
    rw [BTreeMap.getElem?_erase] at hfound
    split at hfound
    · cases hfound
    · exact h.named text found hfound

end HoldsRows

/-! ## Loading -/

/-- Every entry of the projection carries its own name. -/
structure GroupProjection.Named (projection : GroupProjection) : Prop where
  group : ∀ {groupId group}, projection.group groupId = some group → group.id = groupId
  member : ∀ {groupId pubkey member}, projection.member groupId pubkey = some member →
    member.pubkey = pubkey
  role : ∀ {groupId : GroupId} {roleName : RoleName} {role : ProjectedRoleDefinition},
    projection.roles[toLex (groupId, roleName)]? = some role → role.definition.name = roleName
  tombstone : ∀ {groupId tombstone}, projection.tombstone groupId = some tombstone →
    tombstone.groupId = groupId
  eventDeletion : ∀ {eventId deletion}, projection.eventDeletion eventId = some deletion →
    deletion.targetEventId = eventId

section
variable {limits : GroupLimitsConfig} {projection projection' : GroupProjection}

/-- A new projection has no entry to be named wrong. -/
theorem GroupProjection.Named.new : GroupProjection.new.Named where
  group h := by simp [GroupProjection.new, GroupProjection.group] at h
  member h := by simp [GroupProjection.new, GroupProjection.member] at h
  role h := by simp [GroupProjection.new] at h
  tombstone h := by simp [GroupProjection.new, GroupProjection.tombstone] at h
  eventDeletion h := by simp [GroupProjection.new, GroupProjection.eventDeletion] at h

/-- An event keeps the names. -/
theorem GroupProjection.Named.applyItem {item : CanonicalGroupEvent} (h : projection.Named)
    (happly : applyItem limits projection item = .ok projection') : projection'.Named where
  group {groupId group} hgroup := by
    obtain ⟨action, _, _, rfl⟩ := applyItem_eq_ok.mp happly
    rcases ProjectionAction.groupsAfter_cases hgroup with ⟨before, hbefore, hid, _⟩ | ⟨hid, _⟩
    · exact hid.trans (h.group hbefore)
    · exact hid
  member {groupId pubkey member} hmember := by
    rcases @member_applyItem limits groupId pubkey _ _ _ happly with
      ⟨_, _, _, _, hafter⟩ | ⟨_, hafter⟩
    · rw [hafter] at hmember
      cases hmember
      rfl
    · rw [hafter] at hmember
      exact h.member hmember
  role {groupId roleName role} hrole := by
    obtain ⟨action, _, _, rfl⟩ := applyItem_eq_ok.mp happly
    exact h.role hrole
  tombstone {groupId tombstone} htombstone := by
    have hput := tombstoneField.applyItem happly
    have hlookup : (tombstoneField.get projection')[groupId]? = some tombstone := htombstone
    rw [hput] at hlookup
    cases hwrite : tombstoneField.write limits item with
    | none =>
      rw [hwrite] at hlookup
      exact h.tombstone hlookup
    | some write =>
      obtain ⟨_, hvalue⟩ := tombstoneField_write hwrite
      rw [hwrite, Option.elim_some, Lww.getElem?_put] at hlookup
      split at hlookup
      · next hkey =>
        cases hlookup
        rw [hvalue]
        exact hkey.1
      · exact h.tombstone hlookup
  eventDeletion {eventId deletion} hdeletion := by
    have hput := deletionField.applyItem happly
    have hlookup : (deletionField.get projection')[eventId]? = some deletion := hdeletion
    rw [hput] at hlookup
    cases hwrite : deletionField.write limits item with
    | none =>
      rw [hwrite] at hlookup
      exact h.eventDeletion hlookup
    | some write =>
      obtain ⟨_, _, hvalue⟩ := deletionField_write hwrite
      rw [hwrite, Option.elim_some, Lww.getElem?_put] at hlookup
      split at hlookup
      · next hkey =>
        cases hlookup
        rw [hvalue]
        exact hkey.1
      · exact h.eventDeletion hlookup

/-- Events one after another keep the names. -/
theorem GroupProjection.Named.applyItems {items : List CanonicalGroupEvent} (h : projection.Named)
    (happly : applyItems limits projection items = .ok projection') : projection'.Named :=
  Except.foldlM_invariant GroupProjection.Named (fun _ _ _ _ hp hstep => hp.applyItem hstep) h
    happly

end

/-! ## Reading a row -/

/-- A row that is read puts the entry it holds. -/
theorem loadProjectionRow_cases {projection projection' : GroupProjection} {key : Text}
    {value : ExtraValue} (h : loadProjectionRow projection key value = .ok projection') :
    (∃ group, GroupState.fromJsonBytes value = .ok group ∧
      projection' = projection.putGroup group) ∨
    (∃ tombstone, projection' = projection.putTombstone tombstone) ∨
    (∃ deletion, GroupEventDeletion.fromJsonBytes value = .ok deletion ∧
      projection' = projection.putEventDeletion deletion) ∨
    (∃ groupId member, projection' = projection.putMember groupId member) ∨
    ∃ groupId role, projection' = projection.putRole groupId role := by
  unfold loadProjectionRow at h
  dsimp only at h
  split at h
  · split at h
    · obtain ⟨group, hread, rfl⟩ := Except.map_eq_ok.mp h
      exact .inl ⟨group, Except.mapError_eq_ok.mp hread, rfl⟩
    split at h
    · obtain ⟨tombstone, _, rfl⟩ := Except.map_eq_ok.mp h
      exact .inr (.inl ⟨tombstone, rfl⟩)
    split at h
    · obtain ⟨deletion, hread, rfl⟩ := Except.map_eq_ok.mp h
      exact .inr (.inr (.inl ⟨deletion, Except.mapError_eq_ok.mp hread, rfl⟩))
    · cases h
  · split at h
    · obtain ⟨groupId, _, h⟩ := Except.bind_eq_ok.mp h
      obtain ⟨member, _, h⟩ := Except.bind_eq_ok.mp h
      cases h
      exact .inr (.inr (.inr (.inl ⟨groupId, member, rfl⟩)))
    split at h
    · obtain ⟨groupId, _, h⟩ := Except.bind_eq_ok.mp h
      obtain ⟨role, _, h⟩ := Except.bind_eq_ok.mp h
      cases h
      exact .inr (.inr (.inr (.inr ⟨groupId, role, rfl⟩)))
    · cases h
  · cases h

/-- What rows keep, one by one, the projection read from them has. -/
theorem loadGroupProjection_invariant {P : GroupProjection → Prop}
    {records : List (Text × ExtraValue)} {checkpoint : Option ProjectionCheckpoint}
    {loaded : GroupProjection} (hnew : P .new)
    (hrow : ∀ projection projection', ∀ record ∈ records, P projection →
      loadProjectionRow projection record.1 record.2 = .ok projection' → P projection')
    (hdated : ∀ projection checkpoint, P projection → P (projection.setCheckpoint checkpoint))
    (h : loadGroupProjection records checkpoint = .ok loaded) : P loaded := by
  obtain ⟨read, hread, h⟩ := Except.bind_eq_ok.mp h
  have hkept := Except.foldlM_invariant P
    (fun projection record projection' hmem hp hstep =>
      hrow projection projection' record hmem hp hstep) hnew hread
  cases checkpoint with
  | none =>
    cases h
    exact hkept
  | some checkpoint =>
    cases h
    exact hdated _ _ hkept

/-- Every entry that is read carries its own name. -/
theorem GroupProjection.Named.loadRow {projection projection' : GroupProjection} {key : Text}
    {value : ExtraValue} (h : projection.Named)
    (hload : loadProjectionRow projection key value = .ok projection') : projection'.Named := by
  rcases loadProjectionRow_cases hload with ⟨group, _, rfl⟩ | ⟨tombstone, rfl⟩ |
    ⟨deletion, _, rfl⟩ | ⟨groupId, member, rfl⟩ | ⟨groupId, role, rfl⟩
  · refine ⟨fun {id found} hfound => ?_, h.member, h.role, h.tombstone, h.eventDeletion⟩
    rw [GroupProjection.group, GroupProjection.putGroup, BTreeMap.getElem?_insert] at hfound
    split at hfound
    · next hid =>
      cases hfound
      exact hid
    · exact h.group hfound
  · rw [GroupProjection.putTombstone_eq]
    refine ⟨h.group, h.member, h.role, fun {id found} hfound => ?_, h.eventDeletion⟩
    rw [GroupProjection.tombstone, Lww.getElem?_put] at hfound
    split at hfound
    · next hid =>
      cases hfound
      exact hid.1
    · exact h.tombstone hfound
  · rw [GroupProjection.putEventDeletion_eq]
    refine ⟨h.group, h.member, h.role, h.tombstone, fun {id found} hfound => ?_⟩
    rw [GroupProjection.eventDeletion, Lww.getElem?_put] at hfound
    split at hfound
    · next hid =>
      cases hfound
      exact hid.1
    · exact h.eventDeletion hfound
  · rw [GroupProjection.putMember_eq]
    refine ⟨h.group, fun {id pubkey found} hfound => ?_, h.role, h.tombstone, h.eventDeletion⟩
    rw [GroupProjection.member, Lww.getElem?_put] at hfound
    split at hfound
    · next hid =>
      cases hfound
      exact congrArg Prod.snd (toLex.injective hid.1)
    · exact h.member hfound
  · unfold GroupProjection.putRole
    dsimp only
    split
    · refine ⟨h.group, h.member, fun {id name found} hfound => ?_, h.tombstone, h.eventDeletion⟩
      rw [BTreeMap.getElem?_insert] at hfound
      split at hfound
      · next hid =>
        cases hfound
        exact congrArg Prod.snd (toLex.injective hid)
      · exact h.role hfound
    · exact h

/-- The group of an entry; a deletion names its group inside. -/
def GroupProjection.groupOf (projection : GroupProjection) : ProjectionKey → Option GroupId
  | .group groupId | .member groupId _ | .role groupId _ | .tombstone groupId => some groupId
  | .eventDeletion eventId =>
    (projection.eventDeletion eventId).map GroupEventDeletion.groupId

/-- The group ids of the projection are short enough to be read back. -/
def GroupProjection.ShortIds (projection : GroupProjection) : Prop :=
  ∀ key value groupId, projection.row key = some value → projection.groupOf key = some groupId →
    groupId.text.byteLen ≤ maxGroupIdBytes

/-- What a projection covers is named after the events that wrote it. -/
theorem ProjectionCovers.named {limits : GroupLimitsConfig} {L₀ L : CanonicalGroupEvent → Prop}
    {projection : GroupProjection} (h : ProjectionCovers limits L₀ L projection) :
    projection.Named where
  group {groupId group} hgroup := (h.groups groupId group hgroup).id
  member {groupId pubkey member} hmember := by
    obtain ⟨item, _, hwrite⟩ := h.members.written hmember
    obtain ⟨_, _, _, _, _, hkey, rfl⟩ := memberField_write hwrite
    exact (congrArg Prod.snd (toLex.injective hkey)).symm
  role {groupId roleName role} hrole := by
    rw [h.roles, BTreeMap.getElem?_empty] at hrole
    cases hrole
  tombstone {groupId tombstone} htombstone := by
    obtain ⟨item, _, hwrite⟩ := h.tombstones.written htombstone
    obtain ⟨_, rfl⟩ := tombstoneField_write hwrite
    rfl
  eventDeletion {eventId deletion} hdeletion := by
    obtain ⟨item, _, hwrite⟩ := h.eventDeletions.written hdeletion
    obtain ⟨_, _, rfl⟩ := deletionField_write hwrite
    rfl

/-- `q` holds the entries of `p` whose keys are among `keys`, and no others. -/
structure LoadedPart (p : GroupProjection) (keys : List ProjectionKey) (q : GroupProjection) :
    Prop where
  group : ∀ groupId, q.group groupId =
    if .group groupId ∈ keys then p.group groupId else none
  member : ∀ groupId pubkey, q.member groupId pubkey =
    if .member groupId pubkey ∈ keys then p.member groupId pubkey else none
  role : ∀ groupId roleName, q.roles[toLex (groupId, roleName)]? =
    if .role groupId roleName ∈ keys then p.roles[toLex (groupId, roleName)]? else none
  tombstone : ∀ groupId, q.tombstone groupId =
    if .tombstone groupId ∈ keys then p.tombstone groupId else none
  eventDeletion : ∀ eventId, q.eventDeletion eventId =
    if .eventDeletion eventId ∈ keys then p.eventDeletion eventId else none
  checkpoint : q.checkpoint = none

namespace LoadedPart

variable {p q : GroupProjection} {keys : List ProjectionKey}

/-- Nothing has been loaded before the first row. -/
theorem nil : LoadedPart p [] .new where
  group groupId := by simp [GroupProjection.group, GroupProjection.new]
  member groupId pubkey := by simp [GroupProjection.member, GroupProjection.new]
  role groupId roleName := by simp [GroupProjection.new]
  tombstone groupId := by simp [GroupProjection.tombstone, GroupProjection.new]
  eventDeletion eventId := by simp [GroupProjection.eventDeletion, GroupProjection.new]
  checkpoint := rfl

/-- A key that is not among the entries does not matter to their keys of another kind. -/
theorem mem_append_ne {key other : ProjectionKey} (h : other ≠ key) :
    other ∈ keys ++ [key] ↔ other ∈ keys := by
  rw [List.mem_append, List.mem_singleton, or_iff_left h]

/-- A lookup after one more entry was put. -/
theorem lookup_append {α : Type} {key other : ProjectionKey} {before after entry : Option α}
    (hbefore : before = if other ∈ keys then entry else none)
    (hsame : other = key → after = entry) (hother : other ≠ key → after = before) :
    after = if other ∈ keys ++ [key] then entry else none := by
  by_cases heq : other = key
  · rw [if_pos (List.mem_append_right _ (List.mem_singleton.mpr heq)), hsame heq]
  · rw [hother heq, hbefore]
    simp only [mem_append_ne heq]

variable (h : LoadedPart p keys q) (hnamed : p.Named)
include h hnamed

/-- Loading a group's row adds that entry. -/
theorem putGroup {groupId : GroupId} {group : GroupState} (hgroup : p.group groupId = some group) :
    LoadedPart p (keys ++ [.group groupId]) (q.putGroup group) where
  group other := by
    obtain rfl := hnamed.group hgroup
    refine lookup_append (h.group other) (fun heq => ?_) fun hne => ?_
    · cases heq
      rw [hgroup]
      exact BTreeMap.getElem?_insert_self
    · exact BTreeMap.getElem?_insert_ne fun heq => hne (congrArg _ heq.symm)
  member groupId pubkey := lookup_append (h.member groupId pubkey) (fun h => nomatch h) fun _ => rfl
  role groupId roleName := lookup_append (h.role groupId roleName) (fun h => nomatch h) fun _ => rfl
  tombstone groupId := lookup_append (h.tombstone groupId) (fun h => nomatch h) fun _ => rfl
  eventDeletion eventId :=
    lookup_append (h.eventDeletion eventId) (fun h => nomatch h) fun _ => rfl
  checkpoint := h.checkpoint

/-- Loading a member's row adds that entry. -/
theorem putMember {groupId : GroupId} {pubkey : PublicKeyHex} {member : MemberState}
    (hmember : p.member groupId pubkey = some member) (hnew : .member groupId pubkey ∉ keys) :
    LoadedPart p (keys ++ [.member groupId pubkey]) (q.putMember groupId member) := by
  obtain rfl := hnamed.member hmember
  have hnone : q.members[toLex (groupId, member.pubkey)]? = none :=
    (h.member groupId member.pubkey).trans (if_neg hnew)
  have hput : q.putMember groupId member =
      { q with members := q.members.insert (toLex (groupId, member.pubkey)) member } := by
    unfold GroupProjection.putMember
    simp only [hnone, Option.all_none, if_true]
  rw [hput]
  refine ⟨fun other => lookup_append (h.group other) (fun h => nomatch h) fun _ => rfl,
    fun otherGroup other => lookup_append (h.member otherGroup other) (fun heq => ?_) fun hne => ?_,
    fun groupId roleName => lookup_append (h.role groupId roleName) (fun h => nomatch h)
      fun _ => rfl,
    fun other => lookup_append (h.tombstone other) (fun h => nomatch h) fun _ => rfl,
    fun other => lookup_append (h.eventDeletion other) (fun h => nomatch h) fun _ => rfl,
    h.checkpoint⟩
  · cases heq
    rw [hmember]
    exact BTreeMap.getElem?_insert_self
  · refine BTreeMap.getElem?_insert_ne fun heq => hne ?_
    cases toLex.injective heq
    rfl

/-- Loading a role's row adds that entry. -/
theorem putRole {groupId : GroupId} {roleName : RoleName} {role : ProjectedRoleDefinition}
    (hrole : p.roles[toLex (groupId, roleName)]? = some role)
    (hnew : .role groupId roleName ∉ keys) :
    LoadedPart p (keys ++ [.role groupId roleName]) (q.putRole groupId role) := by
  obtain rfl := hnamed.role hrole
  have hnone : q.roles[toLex (groupId, role.definition.name)]? = none :=
    (h.role groupId role.definition.name).trans (if_neg hnew)
  have hput : q.putRole groupId role =
      { q with roles := q.roles.insert (toLex (groupId, role.definition.name)) role } := by
    unfold GroupProjection.putRole
    simp only [hnone, Option.all_none, if_true]
  rw [hput]
  refine ⟨fun other => lookup_append (h.group other) (fun h => nomatch h) fun _ => rfl,
    fun otherGroup other => lookup_append (h.member otherGroup other) (fun h => nomatch h)
      fun _ => rfl,
    fun otherGroup other => lookup_append (h.role otherGroup other) (fun heq => ?_) fun hne => ?_,
    fun other => lookup_append (h.tombstone other) (fun h => nomatch h) fun _ => rfl,
    fun other => lookup_append (h.eventDeletion other) (fun h => nomatch h) fun _ => rfl,
    h.checkpoint⟩
  · cases heq
    rw [hrole]
    exact BTreeMap.getElem?_insert_self
  · refine BTreeMap.getElem?_insert_ne fun heq => hne ?_
    cases toLex.injective heq
    rfl

/-- Loading a tombstone's row adds that entry. -/
theorem putTombstone {groupId : GroupId} {tombstone : GroupTombstone}
    (htombstone : p.tombstone groupId = some tombstone) (hnew : .tombstone groupId ∉ keys) :
    LoadedPart p (keys ++ [.tombstone groupId]) (q.putTombstone tombstone) := by
  obtain rfl := hnamed.tombstone htombstone
  have hnone : q.tombstones[tombstone.groupId]? = none :=
    (h.tombstone tombstone.groupId).trans (if_neg hnew)
  have hput : q.putTombstone tombstone =
      { q with tombstones := q.tombstones.insert tombstone.groupId tombstone } := by
    unfold GroupProjection.putTombstone
    simp only [hnone, Option.all_none, if_true]
  rw [hput]
  refine ⟨fun other => lookup_append (h.group other) (fun h => nomatch h) fun _ => rfl,
    fun otherGroup other => lookup_append (h.member otherGroup other) (fun h => nomatch h)
      fun _ => rfl,
    fun otherGroup other => lookup_append (h.role otherGroup other) (fun h => nomatch h)
      fun _ => rfl,
    fun other => lookup_append (h.tombstone other) (fun heq => ?_) fun hne => ?_,
    fun other => lookup_append (h.eventDeletion other) (fun h => nomatch h) fun _ => rfl,
    h.checkpoint⟩
  · cases heq
    rw [htombstone]
    exact BTreeMap.getElem?_insert_self
  · exact BTreeMap.getElem?_insert_ne fun heq => hne (congrArg _ heq.symm)

/-- Loading the row of an event's deletion adds that entry. -/
theorem putEventDeletion {eventId : EventId} {deletion : GroupEventDeletion}
    (hdeletion : p.eventDeletion eventId = some deletion) (hnew : .eventDeletion eventId ∉ keys) :
    LoadedPart p (keys ++ [.eventDeletion eventId]) (q.putEventDeletion deletion) := by
  obtain rfl := hnamed.eventDeletion hdeletion
  have hnone : q.eventDeletions[deletion.targetEventId]? = none :=
    (h.eventDeletion deletion.targetEventId).trans (if_neg hnew)
  have hput : q.putEventDeletion deletion =
      { q with
        eventDeletions := q.eventDeletions.insert deletion.targetEventId deletion } := by
    unfold GroupProjection.putEventDeletion
    simp only [hnone, Option.all_none, if_true]
  rw [hput]
  refine ⟨fun other => lookup_append (h.group other) (fun h => nomatch h) fun _ => rfl,
    fun otherGroup other => lookup_append (h.member otherGroup other) (fun h => nomatch h)
      fun _ => rfl,
    fun otherGroup other => lookup_append (h.role otherGroup other) (fun h => nomatch h)
      fun _ => rfl,
    fun other => lookup_append (h.tombstone other) (fun h => nomatch h) fun _ => rfl,
    fun other => lookup_append (h.eventDeletion other) (fun heq => ?_) fun hne => ?_,
    h.checkpoint⟩
  · cases heq
    rw [hdeletion]
    exact BTreeMap.getElem?_insert_self
  · exact BTreeMap.getElem?_insert_ne fun heq => hne (congrArg _ heq.symm)

end LoadedPart

section
variable {p q : GroupProjection} {keys : List ProjectionKey} {key : ProjectionKey}
  {value : ExtraValue}

/-- One row: what is loaded is the entry it was written for, and it can be loaded when the id of
its group is short. -/
theorem loadProjectionRow_of_row (hnamed : p.Named) (h : LoadedPart p keys q)
    (hrow : p.row key = some value) (hnew : key ∉ keys) :
    (∀ q', loadProjectionRow q key.text value = .ok q' → LoadedPart p (keys ++ [key]) q') ∧
      ((∀ groupId, p.groupOf key = some groupId → groupId.text.byteLen ≤ maxGroupIdBytes) →
        (loadProjectionRow q key.text value).Succeeds) := by
  unfold loadProjectionRow
  rw [ProjectionKey.splitNul_text]
  cases key with
  | group groupId =>
    obtain ⟨group, hgroup, rfl⟩ := Option.map_eq_some_iff.mp hrow
    simp only [ProjectionKey.parts, if_true]
    refine ⟨fun q' hload => ?_, fun hshort => ?_⟩
    · obtain ⟨read, hread, rfl⟩ := Except.map_eq_ok.mp hload
      obtain ⟨rfl, _⟩ :=
        GroupState.fromJsonBytes_toJsonBytes_eq_ok.mp (Except.mapError_eq_ok.mp hread)
      exact h.putGroup hnamed hgroup
    · have hid : group.id = groupId := hnamed.group hgroup
      rw [Except.succeeds_map, Except.succeeds_mapError,
        GroupState.fromJsonBytes_toJsonBytes (hid ▸ hshort groupId rfl)]
      exact Except.succeeds_ok _
  | member groupId pubkey =>
    obtain ⟨member, hmember, rfl⟩ := Option.map_eq_some_iff.mp hrow
    simp only [ProjectionKey.parts, if_true]
    refine ⟨fun q' hload => ?_, fun hshort => ?_⟩
    · obtain ⟨readId, hreadId, hread⟩ := Except.bind_eq_ok.mp hload
      obtain ⟨rfl, _⟩ := GroupId.new_text_iff.mp (Except.mapError_eq_ok.mp hreadId)
      obtain ⟨read, hread, hput⟩ := Except.bind_eq_ok.mp hread
      rw [MemberState.fromJsonBytes_toJsonBytes] at hread
      cases hread
      cases hput
      exact h.putMember hnamed hmember hnew
    · rw [GroupId.new_text (hshort groupId rfl), MemberState.fromJsonBytes_toJsonBytes]
      exact ⟨_, rfl⟩
  | role groupId roleName =>
    obtain ⟨role, hrole, rfl⟩ := Option.map_eq_some_iff.mp hrow
    have hne : "role".toList ≠ "member".toList := by decide
    simp only [ProjectionKey.parts, hne, if_false, if_true]
    refine ⟨fun q' hload => ?_, fun hshort => ?_⟩
    · obtain ⟨readId, hreadId, hread⟩ := Except.bind_eq_ok.mp hload
      obtain ⟨rfl, _⟩ := GroupId.new_text_iff.mp (Except.mapError_eq_ok.mp hreadId)
      obtain ⟨read, hread, hput⟩ := Except.bind_eq_ok.mp hread
      rw [ProjectedRoleDefinition.fromJsonBytes_toJsonBytes] at hread
      cases hread
      cases hput
      exact h.putRole hnamed hrole hnew
    · rw [GroupId.new_text (hshort groupId rfl), ProjectedRoleDefinition.fromJsonBytes_toJsonBytes]
      exact ⟨_, rfl⟩
  | tombstone groupId =>
    obtain ⟨tombstone, htombstone, rfl⟩ := Option.map_eq_some_iff.mp hrow
    have hne : "tombstone".toList ≠ "group".toList := by decide
    simp only [ProjectionKey.parts, hne, if_false, if_true]
    refine ⟨fun q' hload => ?_, fun hshort => ?_⟩
    · obtain ⟨read, hread, rfl⟩ := Except.map_eq_ok.mp hload
      obtain ⟨rfl, _⟩ :=
        GroupTombstone.fromJsonBytes_toJsonBytes_eq_ok.mp (Except.mapError_eq_ok.mp hread)
      exact h.putTombstone hnamed htombstone hnew
    · have hid : tombstone.groupId = groupId := hnamed.tombstone htombstone
      rw [Except.succeeds_map, Except.succeeds_mapError,
        GroupTombstone.fromJsonBytes_toJsonBytes (hid ▸ hshort groupId rfl)]
      exact Except.succeeds_ok _
  | eventDeletion eventId =>
    obtain ⟨deletion, hdeletion, rfl⟩ := Option.map_eq_some_iff.mp hrow
    have hne : "event_deletion".toList ≠ "group".toList := by decide
    have hne' : "event_deletion".toList ≠ "tombstone".toList := by decide
    simp only [ProjectionKey.parts, hne, hne', if_false, if_true]
    refine ⟨fun q' hload => ?_, fun hshort => ?_⟩
    · obtain ⟨read, hread, rfl⟩ := Except.map_eq_ok.mp hload
      obtain ⟨rfl, _⟩ :=
        GroupEventDeletion.fromJsonBytes_toJsonBytes_eq_ok.mp (Except.mapError_eq_ok.mp hread)
      exact h.putEventDeletion hnamed hdeletion hnew
    · have hid : p.groupOf (.eventDeletion eventId) = some deletion.groupId := by
        rw [GroupProjection.groupOf, hdeletion]
        rfl
      rw [Except.succeeds_map, Except.succeeds_mapError,
        GroupEventDeletion.fromJsonBytes_toJsonBytes (hshort _ hid)]
      exact Except.succeeds_ok _

/-- Rows one after another. -/
theorem foldlM_loadProjectionRow (hnamed : p.Named) {records : List (Text × ExtraValue)}
    (hrecords : ∀ record ∈ records, ∃ key : ProjectionKey,
      key.text = record.1 ∧ p.row key = some record.2)
    (hnodup : (records.map Prod.fst).Nodup) (h : LoadedPart p keys q)
    (hnew : ∀ key ∈ keys, key.text ∉ records.map Prod.fst) :
    (∀ q', records.foldlM (fun q record => loadProjectionRow q record.1 record.2) q = .ok q' →
      ∃ keys', LoadedPart p keys' q' ∧ (∀ key ∈ keys, key ∈ keys') ∧
        ∀ record ∈ records, ∃ key ∈ keys', key.text = record.1) ∧
    (p.ShortIds →
      (records.foldlM (fun q record => loadProjectionRow q record.1 record.2) q).Succeeds) := by
  induction records generalizing keys q with
  | nil =>
    refine ⟨fun q' hload => ?_, fun _ => ⟨q, rfl⟩⟩
    cases hload
    exact ⟨keys, h, fun _ h => h, fun _ h => (nomatch h)⟩
  | cons record rest ih =>
    obtain ⟨key, hkey, hrow⟩ := hrecords record (List.mem_cons_self ..)
    rw [List.map_cons, List.nodup_cons] at hnodup
    have hfresh : key ∉ keys := fun hmem => hnew key hmem (by
      rw [hkey]
      exact List.mem_cons_self ..)
    have hstep := loadProjectionRow_of_row hnamed h hrow hfresh
    rw [hkey] at hstep
    have hnext : ∀ other ∈ keys ++ [key], other.text ∉ rest.map Prod.fst := by
      intro other hother hmem
      rcases List.mem_append.mp hother with hother | hother
      · exact hnew other hother (List.mem_cons_of_mem _ hmem)
      · rw [List.mem_singleton.mp hother, hkey] at hmem
        exact hnodup.1 hmem
    have hrest := fun {q} (h : LoadedPart p (keys ++ [key]) q) =>
      ih (fun r hr => hrecords r (List.mem_cons_of_mem _ hr)) hnodup.2 h hnext
    refine ⟨fun q' hload => ?_, fun hshort => ?_⟩
    · obtain ⟨next, hload, hloadRest⟩ := Except.foldlM_cons_ok.mp hload
      obtain ⟨keys', hpart, hsub, hall⟩ := (hrest (hstep.1 next hload)).1 q' hloadRest
      refine ⟨keys', hpart, fun k hk => hsub k (List.mem_append_left _ hk), fun r hr => ?_⟩
      rcases List.mem_cons.mp hr with rfl | hr
      · exact ⟨key, hsub key (List.mem_append_right _ (List.mem_singleton.mpr rfl)), hkey⟩
      · exact hall r hr
    · obtain ⟨next, hload⟩ := hstep.2 fun groupId hgroup => hshort key _ groupId hrow hgroup
      obtain ⟨q', hq'⟩ := (hrest (hstep.1 next hload)).2 hshort
      exact ⟨q', Except.foldlM_cons_ok.mpr ⟨next, hload, hq'⟩⟩

variable {rows : BTreeMap Text ExtraValue} {checkpoint : Option ProjectionCheckpoint}

/-- Every row of a table that is held is an entry's. -/
theorem HoldsRows.mem_toList {row : ProjectionKey → Option ExtraValue} (h : HoldsRows row rows) :
    ∀ record ∈ rows.toList, ∃ key : ProjectionKey,
      key.text = record.1 ∧ row key = some record.2 := by
  intro record hrecord
  have hlookup : rows[record.1]? = some record.2 := BTreeMap.mem_toList.mp hrecord
  obtain ⟨key, hkey⟩ := h.named record.1 record.2 hlookup
  exact ⟨key, hkey, (h.lookup key).symm.trans (hkey ▸ hlookup)⟩

/-- **Loading gives the projection back.** -/
theorem load_of_holdsRows (hnamed : p.Named) (h : HoldsRows p.row rows)
    (hload : loadGroupProjection rows.toList checkpoint = .ok q) :
    q = { p with checkpoint := checkpoint } := by
  obtain ⟨loaded, hloaded, hload⟩ := Except.bind_eq_ok.mp hload
  obtain ⟨keys, hpart, _, hall⟩ := (foldlM_loadProjectionRow hnamed h.mem_toList
    BTreeMap.nodup_keys_toList .nil fun _ hkey => (nomatch hkey)).1 loaded hloaded
  -- an entry of the projection has a row, so its key was loaded
  have hmem : ∀ {key : ProjectionKey} {value : ExtraValue}, p.row key = some value →
      key ∈ keys := by
    intro key value hrow
    have hrecord : (key.text, value) ∈ rows.toList :=
      BTreeMap.mem_toList.mpr ((h.lookup key).trans hrow)
    obtain ⟨found, hfound, heq⟩ := hall _ hrecord
    exact ProjectionKey.text_injective heq ▸ hfound
  have hentry : ∀ {α : Type} {json : α → ExtraValue} {key : ProjectionKey} {found entry : Option α},
      p.row key = entry.map json → (found = if key ∈ keys then entry else none) →
        found = entry := by
    intro α json key found entry hrow hfound
    cases entry with
    | none => rw [hfound, ite_self]
    | some a => rw [hfound, if_pos (hmem hrow)]
  have hgroups : loaded.groups = p.groups :=
    BTreeMap.ext fun groupId => hentry rfl (hpart.group groupId)
  have hmembers : loaded.members = p.members :=
    BTreeMap.ext fun key => hentry rfl (hpart.member (ofLex key).1 (ofLex key).2)
  have hroles : loaded.roles = p.roles :=
    BTreeMap.ext fun key => hentry rfl (hpart.role (ofLex key).1 (ofLex key).2)
  have htombstones : loaded.tombstones = p.tombstones :=
    BTreeMap.ext fun groupId => hentry rfl (hpart.tombstone groupId)
  have hdeletions : loaded.eventDeletions = p.eventDeletions :=
    BTreeMap.ext fun eventId => hentry rfl (hpart.eventDeletion eventId)
  have hcheckpoint : loaded.checkpoint = none := hpart.checkpoint
  obtain ⟨groups, members, roles, tombstones, eventDeletions, found⟩ := loaded
  obtain rfl : groups = p.groups := hgroups
  obtain rfl : members = p.members := hmembers
  obtain rfl : roles = p.roles := hroles
  obtain rfl : tombstones = p.tombstones := htombstones
  obtain rfl : eventDeletions = p.eventDeletions := hdeletions
  obtain rfl : found = none := hcheckpoint
  cases checkpoint with
  | none => cases hload; rfl
  | some checkpoint => cases hload; rfl

/-- Loading succeeds when the group ids are short. -/
theorem loads_of_shortIds (hnamed : p.Named) (h : HoldsRows p.row rows) (hshort : p.ShortIds) :
    loadGroupProjection rows.toList checkpoint = .ok { p with checkpoint := checkpoint } := by
  obtain ⟨loaded, hloaded⟩ := (foldlM_loadProjectionRow hnamed h.mem_toList
    BTreeMap.nodup_keys_toList .nil fun _ hkey => (nomatch hkey)).2 hshort
  have hsucceeds : ∃ q, loadGroupProjection rows.toList checkpoint = .ok q := by
    unfold loadGroupProjection
    rw [hloaded, Except.ok_bind]
    cases checkpoint with
    | none => exact ⟨_, rfl⟩
    | some checkpoint => exact ⟨_, rfl⟩
  obtain ⟨q, hq⟩ := hsucceeds
  rw [hq, load_of_holdsRows hnamed h hq]

end

end Tangle
