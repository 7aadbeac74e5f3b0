import Mathlib.Data.List.Sort
import Tangle.Lib.LastWriterWins
import Tangle.Groups.Classification
import Tangle.Groups.Metadata
import Tangle.Groups.Roles

/-!
# The group projection

The relay's picture of its groups, built from the stored events one at a time. Every entry carries
the order tuple of the event that wrote it, and a write is kept only when no later one holds its
place; groups alone are written by more than one rule, since a create replaces a group and an edit
changes the one that is there.

`applyCanonicalEvent` follows the source's match over class and kind. A step that fails leaves the
projection as it was, so it returns no projection then.
-/

namespace Tangle

open GroupEventView

/-- `GROUP_PROJECTION_SCHEMA_VERSION`. -/
def groupProjectionSchemaVersion : Nat := 1

/-- `GROUP_POLICY_VERSION`. -/
def groupPolicyVersion : Nat := 1

/-! ## Order tuples -/

/-- The place of an event in the order the projection keeps. -/
structure ProjectionOrderTuple where
  createdAt : UnixTimestamp
  eventId : EventId
  storeOffset : StoreOffset
deriving DecidableEq

namespace ProjectionOrderTuple

/-- The components, compared one after another. -/
def toLexKey (tuple : ProjectionOrderTuple) : UnixTimestamp ×ₗ EventId ×ₗ StoreOffset :=
  toLex (tuple.createdAt, toLex (tuple.eventId, tuple.storeOffset))

/-- Tuples are told apart by the keys that order them. -/
theorem toLexKey_injective : Function.Injective toLexKey := by
  intro ⟨a, b, c⟩ ⟨a', b', c'⟩ h
  cases h
  rfl

instance : LinearOrder ProjectionOrderTuple :=
  LinearOrder.lift' toLexKey toLexKey_injective

/-- The tuple of a stored event. -/
def fromEventView (event : PocketEvent) (storeOffset : StoreOffset) :
    Except GroupError ProjectionOrderTuple := do
  return ⟨GroupEventView.createdAt event, ← GroupEventView.id event, storeOffset⟩

/-- Every stored event has a tuple. -/
@[simp] theorem fromEventView_eq (event : PocketEvent) (storeOffset : StoreOffset) :
    fromEventView event storeOffset = .ok ⟨event.createdAt, event.id, storeOffset⟩ := by
  simp only [fromEventView, GroupEventView.id_eq, Except.ok_bind]
  rfl

end ProjectionOrderTuple

/-! ## Entries -/

/-- Whether a group is in use or has been deleted. -/
inductive GroupLifecycleState where
  | active | deleted
deriving DecidableEq

/-- What has become of a member. -/
inductive MemberStatus where
  | member | removed
deriving DecidableEq

/-- The latest generated snapshot of each kind. -/
structure GroupSnapshotIds where
  metadata : Option EventId
  admins : Option EventId
  members : Option EventId
  roles : Option EventId
  state39004 : Option EventId
deriving DecidableEq

namespace GroupSnapshotIds

/-- No snapshot yet. -/
def empty : GroupSnapshotIds :=
  ⟨none, none, none, none, none⟩

/-- `GroupSnapshotIds::set_for_kind`: of other kinds than the four nothing is kept. -/
def setForKind (snapshots : GroupSnapshotIds) (kind : Kind) (eventId : EventId) :
    GroupSnapshotIds :=
  match kind.value with
  | kindGroupMetadata => { snapshots with metadata := some eventId }
  | kindGroupAdmins => { snapshots with admins := some eventId }
  | kindGroupMembers => { snapshots with members := some eventId }
  | kindGroupRoles => { snapshots with roles := some eventId }
  | kindGroupState39004 => { snapshots with state39004 := some eventId }
  | _ => snapshots

end GroupSnapshotIds

/-- A group. -/
structure GroupState where
  id : GroupId
  lifecycle : GroupLifecycleState
  metadata : GroupMetadata
  createdBy : PublicKeyHex
  createdEventId : EventId
  createdTuple : ProjectionOrderTuple
  metadataTuple : ProjectionOrderTuple
  deletedAt : Option UnixTimestamp
  deleteEventId : Option EventId
  deletedTuple : Option ProjectionOrderTuple
  snapshots : GroupSnapshotIds

namespace GroupState

/-- A group as the event that creates it leaves it. -/
def new (id : GroupId) (metadata : GroupMetadata) (createdBy : PublicKeyHex)
    (createdEventId : EventId) (createdTuple : ProjectionOrderTuple) : GroupState where
  id := id
  lifecycle := .active
  metadata := metadata
  createdBy := createdBy
  createdEventId := createdEventId
  createdTuple := createdTuple
  metadataTuple := createdTuple
  deletedAt := none
  deleteEventId := none
  deletedTuple := none
  snapshots := .empty

/-- The group with other metadata. -/
def updateMetadata (group : GroupState) (metadata : GroupMetadata)
    (tuple : ProjectionOrderTuple) : GroupState :=
  if tuple ≥ group.metadataTuple then
    { group with metadata := metadata, metadataTuple := tuple }
  else
    group

/-- The group when it has been deleted. -/
def markDeleted (group : GroupState) (deletedAt : UnixTimestamp) (deleteEventId : EventId)
    (tuple : ProjectionOrderTuple) : GroupState :=
  if group.deletedTuple.all fun current => decide (tuple ≥ current) then
    { group with
      lifecycle := .deleted
      deletedAt := some deletedAt
      deleteEventId := some deleteEventId
      deletedTuple := some tuple }
  else
    group

/-- The group with another latest snapshot. -/
def setSnapshot (group : GroupState) (kind : Kind) (eventId : EventId) : GroupState :=
  { group with snapshots := group.snapshots.setForKind kind eventId }

end GroupState

/-- A member of a group, or one who was removed. -/
structure MemberState where
  pubkey : PublicKeyHex
  status : MemberStatus
  roles : BTreeSet RoleName
  lastEventId : EventId
  lastTuple : ProjectionOrderTuple

/-- A role as a group defines it. -/
structure ProjectedRoleDefinition where
  definition : RoleDefinition
  lastEventId : EventId
  lastTuple : ProjectionOrderTuple

/-- What is left of a deleted group. -/
structure GroupTombstone where
  groupId : GroupId
  deleteEventId : EventId
  deletedAt : UnixTimestamp
  deletedBy : PublicKeyHex
  lastTuple : ProjectionOrderTuple
deriving DecidableEq

/-- The deletion of an event by a moderator. -/
structure GroupEventDeletion where
  groupId : GroupId
  targetEventId : EventId
  deleteEventId : EventId
  deletedAt : UnixTimestamp
  deletedBy : PublicKeyHex
  lastTuple : ProjectionOrderTuple
deriving DecidableEq

/-- How far the persisted rows of the projection reach. -/
structure ProjectionCheckpoint where
  projectionVersion : Nat
  policyVersion : Nat
  lastOffset : Option StoreOffset
  rebuiltAt : UnixTimestamp
deriving DecidableEq

namespace ProjectionCheckpoint

/-- A checkpoint of the versions that the program has. -/
def current (lastOffset : Option StoreOffset) (rebuiltAt : UnixTimestamp) :
    ProjectionCheckpoint :=
  ⟨groupProjectionSchemaVersion, groupPolicyVersion, lastOffset, rebuiltAt⟩

/-- Whether a checkpoint was written by a program of these versions. -/
def matchesCurrentVersions (checkpoint : ProjectionCheckpoint) : Bool :=
  checkpoint.projectionVersion == groupProjectionSchemaVersion &&
    checkpoint.policyVersion == groupPolicyVersion

end ProjectionCheckpoint

/-! ## The projection -/

instance transOrdMemberKey : Std.TransOrd (GroupId ×ₗ PublicKeyHex) :=
  inferInstance

instance transOrdRoleKey : Std.TransOrd (GroupId ×ₗ RoleName) :=
  inferInstance

/-- The picture of all groups. -/
structure GroupProjection where
  groups : BTreeMap GroupId GroupState
  members : BTreeMap (GroupId ×ₗ PublicKeyHex) MemberState
  roles : BTreeMap (GroupId ×ₗ RoleName) ProjectedRoleDefinition
  tombstones : BTreeMap GroupId GroupTombstone
  eventDeletions : BTreeMap EventId GroupEventDeletion
  checkpoint : Option ProjectionCheckpoint

/-- What an event did to the projection. -/
inductive ProjectionApplyOutcome where
  | applied | ignored | skipped
deriving DecidableEq

/-- The first value of the first tag of a name, which has to be there. -/
def firstTagValue (event : PocketEvent) (name : String) : Except GroupError Text :=
  lastTargetTag name .ok event

/-- Adds the role of a role tag; a role tag without a value is passed over. -/
def visitRoleTag (roles : BTreeSet RoleName) (tag : GroupEventTag) :
    Except GroupError (BTreeSet RoleName) :=
  if tag.isNamed "role" then
    match tag.value 1 with
    | some value => do return roles.insert (← RoleName.new value)
    | none => .ok roles
  else
    .ok roles

/-- The roles that the tags of an event name. -/
def roleTags (event : PocketEvent) : Except GroupError (BTreeSet RoleName) :=
  visitTags event visitRoleTag ∅

/-- The roles of an event can be read when its role tags name roles. -/
theorem roleTags_succeeds_iff {event : PocketEvent} : (roleTags event).Succeeds ↔
    ∃ tags, Decodes event tags ∧ ∀ tag ∈ tags, tag.isNamed "role" = true →
      ∀ value, tag.value 1 = some value → (RoleName.new value).Succeeds := by
  have hfold : ∀ (tags : List GroupEventTag) (start : BTreeSet RoleName),
      (tags.foldlM visitRoleTag start).Succeeds ↔ ∀ tag ∈ tags, tag.isNamed "role" = true →
        ∀ value, tag.value 1 = some value → (RoleName.new value).Succeeds := by
    intro tags
    induction tags with
    | nil => exact fun start => ⟨fun _ _ h => absurd h List.not_mem_nil, fun _ => ⟨start, rfl⟩⟩
    | cons tag rest ih =>
      intro start
      rw [List.foldlM_cons, Except.succeeds_bind, List.forall_mem_cons]
      rw [visitRoleTag]
      cases hname : tag.isNamed "role" with
      | false => simp [ih]
      | true =>
        cases hvalue : tag.value 1 with
        | none => simp [ih]
        | some value =>
          rcases hrole : RoleName.new value with e | role
          · simp [hrole]
          · simp only [if_true, hrole, Except.ok_bind]
            constructor
            · rintro ⟨next, _, hrest⟩
              refine ⟨fun _ value' hvalue' => ?_, (ih next).mp hrest⟩
              cases hvalue'
              exact ⟨role, hrole⟩
            · rintro ⟨_, hrest⟩
              exact ⟨start.insert role, rfl, (ih _).mpr hrest⟩
  unfold roleTags
  constructor
  · rintro ⟨roles, hroles⟩
    obtain ⟨tags, htags, h⟩ := visitTags_eq_ok.mp hroles
    exact ⟨tags, htags, (hfold tags ∅).mp ⟨roles, h⟩⟩
  · rintro ⟨tags, htags, hall⟩
    obtain ⟨roles, h⟩ := (hfold tags ∅).mpr hall
    exact ⟨roles, visitTags_eq_ok.mpr ⟨tags, htags, h⟩⟩

namespace GroupProjection

/-- The projection of no events. -/
def new : GroupProjection :=
  ⟨∅, ∅, ∅, ∅, ∅, none⟩

/-- `GroupProjection::group`. -/
def group (projection : GroupProjection) (groupId : GroupId) : Option GroupState :=
  projection.groups[groupId]?

/-- `GroupProjection::member`. -/
def member (projection : GroupProjection) (groupId : GroupId) (pubkey : PublicKeyHex) :
    Option MemberState :=
  projection.members[toLex (groupId, pubkey)]?

/-- `GroupProjection::tombstone`. -/
def tombstone (projection : GroupProjection) (groupId : GroupId) : Option GroupTombstone :=
  projection.tombstones[groupId]?

/-- `GroupProjection::event_deletion`. -/
def eventDeletion (projection : GroupProjection) (eventId : EventId) :
    Option GroupEventDeletion :=
  projection.eventDeletions[eventId]?

/-- `GroupProjection::set_checkpoint`. -/
def setCheckpoint (projection : GroupProjection) (checkpoint : ProjectionCheckpoint) :
    GroupProjection :=
  { projection with checkpoint := some checkpoint }

/-- `GroupProjection::put_group`. -/
def putGroup (projection : GroupProjection) (state : GroupState) : GroupProjection :=
  { projection with groups := projection.groups.insert state.id state }

/-- `GroupProjection::put_member`: only what is later in the order of tuples replaces. -/
def putMember (projection : GroupProjection) (groupId : GroupId) (state : MemberState) :
    GroupProjection :=
  let key := toLex (groupId, state.pubkey)
  if projection.members[key]?.all fun current => decide (current.lastTuple ≤ state.lastTuple) then
    { projection with members := projection.members.insert key state }
  else
    projection

/-- `GroupProjection::put_role`: only what is later replaces. -/
def putRole (projection : GroupProjection) (groupId : GroupId) (role : ProjectedRoleDefinition) :
    GroupProjection :=
  let key := toLex (groupId, role.definition.name)
  if projection.roles[key]?.all fun current => decide (current.lastTuple ≤ role.lastTuple) then
    { projection with roles := projection.roles.insert key role }
  else
    projection

/-- `GroupProjection::put_tombstone`: only what is later replaces. -/
def putTombstone (projection : GroupProjection) (tombstone : GroupTombstone) : GroupProjection :=
  if projection.tombstones[tombstone.groupId]?.all fun current =>
      decide (current.lastTuple ≤ tombstone.lastTuple) then
    { projection with tombstones := projection.tombstones.insert tombstone.groupId tombstone }
  else
    projection

/-- `GroupProjection::put_event_deletion`: only what is later replaces. -/
def putEventDeletion (projection : GroupProjection) (deletion : GroupEventDeletion) :
    GroupProjection :=
  if projection.eventDeletions[deletion.targetEventId]?.all fun current =>
      decide (current.lastTuple ≤ deletion.lastTuple) then
    { projection with
      eventDeletions := projection.eventDeletions.insert deletion.targetEventId deletion }
  else
    projection

/-- Members, tombstones and deletions are last-writer-wins maps under their order tuples. -/
theorem putMember_eq (projection : GroupProjection) (groupId : GroupId) (state : MemberState) :
    projection.putMember groupId state =
      { projection with
        members := Lww.put MemberState.lastTuple projection.members
          (toLex (groupId, state.pubkey)) state } := by
  unfold putMember Lww.put
  dsimp only
  split
  · rfl
  · rfl

/-- Putting a tombstone is a write in which the last writer wins. -/
theorem putTombstone_eq (projection : GroupProjection) (tombstone : GroupTombstone) :
    projection.putTombstone tombstone =
      { projection with
        tombstones := Lww.put GroupTombstone.lastTuple projection.tombstones
          tombstone.groupId tombstone } := by
  unfold putTombstone Lww.put
  split
  · rfl
  · rfl

/-- So is putting the deletion of an event. -/
theorem putEventDeletion_eq (projection : GroupProjection) (deletion : GroupEventDeletion) :
    projection.putEventDeletion deletion =
      { projection with
        eventDeletions := Lww.put GroupEventDeletion.lastTuple projection.eventDeletions
          deletion.targetEventId deletion } := by
  unfold putEventDeletion Lww.put
  split
  · rfl
  · rfl

/-! ## Applying an event -/

/-- `apply_member_status`. -/
def applyMemberStatus (projection : GroupProjection) (groupId : GroupId) (event : PocketEvent)
    (tuple : ProjectionOrderTuple) (status : MemberStatus) :
    Except GroupError (ProjectionApplyOutcome × GroupProjection) := do
  let target ← firstTagValue event "p"
  let pubkey ← (PublicKeyHex.new target).mapError fun reason =>
    .invalid .malformedTargetTag s!"malformed p target tag: {reason}"
  let roles ← roleTags event
  let state : MemberState := ⟨pubkey, status, roles, ← GroupEventView.id event, tuple⟩
  return (.applied, projection.putMember groupId state)

/-- `apply_moderation_event`, by the kind of the event. -/
def applyModerationEvent (projection : GroupProjection) (groupId : GroupId) (event : PocketEvent)
    (tuple : ProjectionOrderTuple) (limits : GroupLimitsConfig) :
    Except GroupError (ProjectionApplyOutcome × GroupProjection) :=
  match kindU32 event with
  | kindGroupCreateGroup => do
    let state := GroupState.new groupId (← parseGroupMetadata event limits)
      (← GroupEventView.pubkey event) (← GroupEventView.id event) tuple
    if (projection.group groupId).all fun current =>
        decide (state.createdTuple ≥ current.createdTuple) then
      return (.applied, projection.putGroup state)
    else
      return (.ignored, projection)
  | kindGroupEditMetadata =>
    match projection.group groupId with
    | none => .ok (.ignored, projection)
    | some group => do
      let group := group.updateMetadata (← parseGroupMetadata event limits) tuple
      return (.applied, { projection with groups := projection.groups.insert groupId group })
  | kindGroupPutUser => projection.applyMemberStatus groupId event tuple .member
  | kindGroupRemoveUser => projection.applyMemberStatus groupId event tuple .removed
  | kindGroupDeleteEvent => do
    let targetEventId ← (EventId.new (← firstTagValue event "e")).mapError fun reason =>
      .invalid .malformedTargetTag s!"malformed e target tag: {reason}"
    let deletion : GroupEventDeletion := ⟨groupId, targetEventId, ← GroupEventView.id event,
      createdAt event, ← GroupEventView.pubkey event, tuple⟩
    return (.applied, projection.putEventDeletion deletion)
  | kindGroupDeleteGroup => do
    let tombstone : GroupTombstone := ⟨groupId, ← GroupEventView.id event, createdAt event,
      ← GroupEventView.pubkey event, tuple⟩
    let eventId ← GroupEventView.id event
    let projection := match projection.group groupId with
      | none => projection
      | some group =>
        let group := group.markDeleted (createdAt event) eventId tuple
        { projection with groups := projection.groups.insert groupId group }
    -- the source tests and inserts here itself and does not call `put_tombstone`
    if projection.tombstones[groupId]?.all fun current => decide (tuple ≥ current.lastTuple) then
      return (.applied,
        { projection with tombstones := projection.tombstones.insert groupId tombstone })
    else
      return (.ignored, projection)
  | _ => .ok (.ignored, projection)

/-- `apply_snapshot_event`. -/
def applySnapshotEvent (projection : GroupProjection) (groupId : GroupId) (kind : Kind)
    (event : PocketEvent) (tuple : ProjectionOrderTuple) (limits : GroupLimitsConfig) :
    Except GroupError (ProjectionApplyOutcome × GroupProjection) :=
  if kind.value = kindGroupMetadata then do
    let metadata ← parseGroupMetadata event limits
    let eventId ← GroupEventView.id event
    match projection.group groupId with
    | some group =>
      let group := (group.updateMetadata metadata tuple).setSnapshot kind eventId
      return (.applied, { projection with groups := projection.groups.insert groupId group })
    | none =>
      let state := (GroupState.new groupId metadata (← GroupEventView.pubkey event) eventId
        tuple).setSnapshot kind eventId
      return (.applied, projection.putGroup state)
  else
    match projection.group groupId with
    | some group => do
      let group := group.setSnapshot kind (← GroupEventView.id event)
      return (.applied, { projection with groups := projection.groups.insert groupId group })
    | none => .ok (.applied, projection)

/-- **`apply_canonical_event`**: what a stored event of a group does to the projection. -/
def applyCanonicalEvent (projection : GroupProjection) (event : PocketEvent)
    (storeOffset : StoreOffset) (limits : GroupLimitsConfig) :
    Except GroupError (ProjectionApplyOutcome × GroupProjection) := do
  let eventClass ← classifyGroupEvent event limits
  let tuple ← ProjectionOrderTuple.fromEventView event storeOffset
  match eventClass with
  | .nonGroup => return (.skipped, projection)
  | .normal _ => return (.ignored, projection)
  | .moderation _ groupId => projection.applyModerationEvent groupId event tuple limits
  | .relayGeneratedSnapshot kind groupId =>
    projection.applySnapshotEvent groupId kind event tuple limits

end GroupProjection

/-! ## Rebuilding -/

/-- A stored event that belongs to a group; the source wraps it once more. -/
abbrev CanonicalGroupEvent : Type := StoredEvent

/-- Applies a stored event. -/
def applyItem (limits : GroupLimitsConfig) (projection : GroupProjection)
    (item : CanonicalGroupEvent) : Except GroupError GroupProjection :=
  Prod.snd <$> projection.applyCanonicalEvent item.event item.storeOffset limits

/-- Applies stored events one after another. -/
def applyItems (limits : GroupLimitsConfig) (projection : GroupProjection)
    (items : List CanonicalGroupEvent) : Except GroupError GroupProjection :=
  items.foldlM (applyItem limits) projection

/-- The event's order tuple; the source takes it from the view and expects it to exist. -/
def StoredEvent.tuple (item : StoredEvent) : ProjectionOrderTuple :=
  ⟨item.event.createdAt, item.event.id, item.storeOffset⟩

/-- The events in the order of their tuples (`events.sort_by_key(CanonicalGroupEvent::tuple)`). -/
def sortByTuple (events : List CanonicalGroupEvent) : List CanonicalGroupEvent :=
  events.insertionSort fun a b => a.tuple ≤ b.tuple

/-- How many events a rebuild has applied and skipped. -/
structure ProjectionRebuildReport where
  projection : GroupProjection
  appliedEvents : Nat
  ignoredEvents : Nat
  skippedEvents : Nat
  lastOffset : Option StoreOffset

/-- The report with one more outcome. -/
def ProjectionRebuildReport.count (report : ProjectionRebuildReport) :
    ProjectionApplyOutcome → ProjectionRebuildReport
  | .applied => { report with appliedEvents := report.appliedEvents + 1 }
  | .ignored => { report with ignoredEvents := report.ignoredEvents + 1 }
  | .skipped => { report with skippedEvents := report.skippedEvents + 1 }

/-- Applies one event and counts what it did. -/
def ProjectionRebuildReport.step (limits : GroupLimitsConfig) (report : ProjectionRebuildReport)
    (item : CanonicalGroupEvent) : Except GroupError ProjectionRebuildReport := do
  let lastOffset := match report.lastOffset with
    | some current => max current item.storeOffset
    | none => item.storeOffset
  let (outcome, projection) ←
    report.projection.applyCanonicalEvent item.event item.storeOffset limits
  return ({ report with projection, lastOffset := some lastOffset }).count outcome

/-- `rebuild_group_projection`: the events are sorted by their tuples and applied one after
another. -/
def rebuildGroupProjection (events : List CanonicalGroupEvent) (limits : GroupLimitsConfig)
    (rebuiltAt : UnixTimestamp) : Except GroupError ProjectionRebuildReport := do
  let report ← (sortByTuple events).foldlM (ProjectionRebuildReport.step limits)
    (⟨.new, 0, 0, 0, none⟩ : ProjectionRebuildReport)
  return { report with
    projection := report.projection.setCheckpoint (.current report.lastOffset rebuiltAt) }

/-- The last of some offsets and those of the events. -/
def lastOffsetFrom (start : Option StoreOffset) (items : List CanonicalGroupEvent) :
    Option StoreOffset :=
  (start.toList ++ items.map StoredEvent.storeOffset).max?

/-- A run of the rebuild's steps is a run of `applyItems` and the last offset. -/
theorem ProjectionRebuildReport.foldlM_step {limits : GroupLimitsConfig}
    {items : List CanonicalGroupEvent} {report : ProjectionRebuildReport} :
    (fun last => (last.projection, last.lastOffset)) <$>
        items.foldlM (ProjectionRebuildReport.step limits) report =
      (fun projection => (projection, lastOffsetFrom report.lastOffset items)) <$>
        applyItems limits report.projection items := by
  induction items generalizing report with
  | nil =>
    have hlast : lastOffsetFrom report.lastOffset [] = report.lastOffset := by
      cases h : report.lastOffset <;> simp [lastOffsetFrom]
    simp only [applyItems, Except.foldlM_nil, Except.functor_map_ok, hlast]
  | cons item rest ih =>
    simp only [applyItems, List.foldlM_cons]
    unfold ProjectionRebuildReport.step applyItem
    cases happly : report.projection.applyCanonicalEvent item.event item.storeOffset limits with
    | error e => rfl
    | ok result =>
      obtain ⟨outcome, projection⟩ := result
      simp only [Except.functor_map_ok, Except.ok_bind]
      have hcount : ∀ next : ProjectionRebuildReport,
          (next.count outcome).projection = next.projection ∧
            (next.count outcome).lastOffset = next.lastOffset := by
        intro next
        cases outcome <;> exact ⟨rfl, rfl⟩
      refine ih.trans ?_
      rw [(hcount _).1, (hcount _).2]
      have hlast : lastOffsetFrom (some (match report.lastOffset with
          | some current => max current item.storeOffset
          | none => item.storeOffset)) rest = lastOffsetFrom report.lastOffset (item :: rest) := by
        cases report.lastOffset with
        | none => simp [lastOffsetFrom]
        | some current =>
          simp only [lastOffsetFrom, Option.toList_some, List.cons_append, List.nil_append,
            List.map_cons, List.max?_cons, Option.elim]
          cases (rest.map StoredEvent.storeOffset).max? with
          | none => rfl
          | some last => exact congrArg some (max_assoc ..)
      dsimp only
      rw [hlast]
      rfl

/-- A rebuild applies the events in the order of their tuples to an empty projection, and its
checkpoint is at the last of them. -/
theorem rebuildGroupProjection_projection {events : List CanonicalGroupEvent}
    {limits : GroupLimitsConfig} {rebuiltAt : UnixTimestamp} :
    ProjectionRebuildReport.projection <$> rebuildGroupProjection events limits rebuiltAt =
      (fun projection => projection.setCheckpoint
        (.current ((sortByTuple events).map StoredEvent.storeOffset).max? rebuiltAt)) <$>
        applyItems limits .new (sortByTuple events) := by
  unfold rebuildGroupProjection
  have hfold := @ProjectionRebuildReport.foldlM_step limits (sortByTuple events)
    ⟨.new, 0, 0, 0, none⟩
  dsimp only at hfold
  cases happly : applyItems limits .new (sortByTuple events) with
  | error e =>
    rw [happly] at hfold
    cases hreport : (sortByTuple events).foldlM (ProjectionRebuildReport.step limits)
        ⟨.new, 0, 0, 0, none⟩ with
    | error e' => rw [hreport] at hfold; cases hfold; rfl
    | ok report => rw [hreport] at hfold; cases hfold
  | ok projection =>
    rw [happly] at hfold
    cases hreport : (sortByTuple events).foldlM (ProjectionRebuildReport.step limits)
        ⟨.new, 0, 0, 0, none⟩ with
    | error e' => rw [hreport] at hfold; cases hfold
    | ok report =>
      rw [hreport] at hfold
      have hpair := Except.ok.inj hfold
      have hprojection : report.projection = projection := congrArg Prod.fst hpair
      have hoffset : report.lastOffset = lastOffsetFrom none (sortByTuple events) :=
        congrArg Prod.snd hpair
      simp only [Except.ok_bind, hprojection, hoffset]
      rfl

end Tangle
