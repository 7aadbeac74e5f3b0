import Mathlib.Data.Finset.Dedup
import Mathlib.Data.Finset.Max
import Tangle.Groups.Sources

/-!
# The recorded snapshots of a group

A group records the id of one snapshot of each kind: of the last that was taken since the group was
made (`recordsLast_of_create`). A create makes the group anew and forgets what was recorded. So
where events are taken as they arrive, the id is that of the snapshot that arrived last
(`recordsLast_of_arrival`), and where they are taken in the order of their tuples, it is that of the
latest snapshot, unless the create is later (`recordsLast_of_rebuild`).
-/

namespace Tangle

open GroupEventView

/-- The recorded id of a kind. -/
def GroupSnapshotIds.forKind (snapshots : GroupSnapshotIds) (kind : Kind) : Option EventId :=
  match kind.value with
  | kindGroupMetadata => snapshots.metadata
  | kindGroupAdmins => snapshots.admins
  | kindGroupMembers => snapshots.members
  | kindGroupRoles => snapshots.roles
  | kindGroupState39004 => snapshots.state39004
  | _ => none

/-- No snapshot has been seen of any kind. -/
@[simp] theorem GroupSnapshotIds.forKind_empty (kind : Kind) :
    GroupSnapshotIds.empty.forKind kind = none := by
  unfold forKind
  split <;> rfl

/-- Setting the id of a kind that is recorded. -/
theorem GroupSnapshotIds.forKind_setForKind {snapshots : GroupSnapshotIds} {kind kind' : Kind}
    {eventId : EventId} (hkind : isRelayGeneratedKind kind = true) :
    (snapshots.setForKind kind eventId).forKind kind' =
      if kind = kind' then some eventId else snapshots.forKind kind' := by
  have hvalue : kind = kind' ↔ kind.value = kind'.value :=
    ⟨congrArg Kind.value, fun h => Kind.value_injective h⟩
  have hmem : kind.value ∈ nip29RelayGeneratedKindValues := List.contains_iff_mem.mp hkind
  unfold nip29RelayGeneratedKindValues at hmem
  simp only [List.mem_cons, List.not_mem_nil, or_false, kindGroupMetadata, kindGroupAdmins,
    kindGroupMembers, kindGroupRoles, kindGroupState39004] at hmem
  unfold setForKind forKind
  simp only [hvalue]
  -- one kind is set; the kind that is read is that one or another
  rcases hmem with h | h | h | h | h
  all_goals
    rw [h]
    generalize kind'.value = other
    split
    all_goals
      simp [eq_comm, *]
      try assumption

section
variable {limits : GroupLimitsConfig} {groupId : GroupId} {item : CanonicalGroupEvent}
  {kind : Kind}

/-- The event is of the group. -/
def OfGroup (limits : GroupLimitsConfig) (groupId : GroupId) (item : CanonicalGroupEvent) : Prop :=
  ∃ eventClass, classifyGroupEvent item.event limits = .ok eventClass ∧
    eventClass.groupId = some groupId

/-- Snapshots are of the kinds that are recorded. -/
theorem Snapshots.relayGenerated (h : Snapshots limits item.event kind groupId) :
    isRelayGeneratedKind kind = true := by
  obtain ⟨hclass, _⟩ := h
  obtain rfl := kind_of_class (.inr hclass)
  unfold classifyGroupEvent at hclass
  rw [GroupEventView.kind_eq, Except.ok_bind] at hclass
  split at hclass
  · assumption
  split at hclass
  · obtain ⟨_, _, hclass⟩ := Except.bind_eq_ok.mp hclass
    cases hclass
  split at hclass
  · obtain ⟨_, _, hclass⟩ := Except.bind_eq_ok.mp hclass
    cases hclass
  · obtain ⟨has, _, hclass⟩ := Except.bind_eq_ok.mp hclass
    split at hclass
    · obtain ⟨found, _, hclass⟩ := Except.bind_eq_ok.mp hclass
      cases found with
      | none => cases hclass
      | some groupTag => cases hclass
    · cases hclass

/-- An event that creates a group is of it. -/
theorem CreatesGroup.ofGroup (h : CreatesGroup limits groupId item) : OfGroup limits groupId item :=
  ⟨_, h.moderates.1, rfl⟩

/-- A snapshot of a group is of it. -/
theorem Snapshots.ofGroup (h : Snapshots limits item.event kind groupId) :
    OfGroup limits groupId item :=
  ⟨_, h.1, rfl⟩

/-- What sets a group's metadata is of the group. -/
theorem SetsMetadata.ofGroup (h : SetsMetadata limits groupId item) :
    OfGroup limits groupId item := by
  rcases h.makes_or_edits with (hcreates | ⟨snapshotKind, metadata, haction⟩) | hedits
  · exact hcreates.ofGroup
  · exact (source_of_eventAction haction).1.ofGroup
  · exact ⟨_, hedits.1, rfl⟩

/-! ## One event -/

variable {projection projection' : GroupProjection} {group : GroupState}

/-- The action of a snapshot. -/
theorem Snapshots.action {action : ProjectionAction} (h : Snapshots limits item.event kind groupId)
    (haction : eventAction item.event limits = .ok action) :
    (∃ metadata, action = .metadataSnapshot groupId kind metadata) ∨
      action = .otherSnapshot groupId kind := by
  obtain ⟨eventClass, hclass, haction⟩ := Except.bind_eq_ok.mp haction
  cases h.1.symm.trans hclass
  unfold classAction at haction
  dsimp only at haction
  split at haction
  · obtain ⟨metadata, _, rfl⟩ := Except.map_eq_ok.mp haction
    exact .inl ⟨metadata, rfl⟩
  · cases haction
    exact .inr rfl

/-- New metadata leaves the ids of the snapshots. -/
theorem GroupState.snapshots_updateMetadata (metadata : GroupMetadata)
    (tuple : ProjectionOrderTuple) : (group.updateMetadata metadata tuple).snapshots =
      group.snapshots := by
  unfold updateMetadata
  split <;> rfl

/-- A deletion leaves the ids of the snapshots. -/
theorem GroupState.snapshots_markDeleted (deletedAt : UnixTimestamp) (deleteEventId : EventId)
    (tuple : ProjectionOrderTuple) :
    (group.markDeleted deletedAt deleteEventId tuple).snapshots = group.snapshots := by
  unfold markDeleted
  split <;> rfl

/-- What an event makes of the recorded ids: it is recorded when it is a snapshot. -/
def Records (limits : GroupLimitsConfig) (groupId : GroupId) (item : CanonicalGroupEvent)
    (before after : GroupSnapshotIds) : Prop :=
  (after = before ∧ ∀ kind, ¬Snapshots limits item.event kind groupId) ∨
    ∃ kind, Snapshots limits item.event kind groupId ∧
      after = before.setForKind kind item.event.id

/-- The id of a kind is that of the event when it is a snapshot of the kind, and else stays. -/
theorem Records.forKind {before after : GroupSnapshotIds}
    (h : Records limits groupId item before after) (kind : Kind) :
    (Snapshots limits item.event kind groupId → after.forKind kind = some item.event.id) ∧
      (¬Snapshots limits item.event kind groupId → after.forKind kind = before.forKind kind) := by
  rcases h with ⟨rfl, hnone⟩ | ⟨kind', hsnapshot, rfl⟩
  · exact ⟨fun hsnapshot => absurd hsnapshot (hnone kind), fun _ => rfl⟩
  · rw [GroupSnapshotIds.forKind_setForKind hsnapshot.relayGenerated]
    refine ⟨fun hsame => if_pos ?_, fun hother => if_neg ?_⟩
    · cases hsnapshot.1.symm.trans hsame.1
      rfl
    · rintro rfl
      exact hother hsnapshot

/-- A group that an event does not create keeps what it has recorded, or records the event. -/
theorem records_applyItem (happly : applyItem limits projection item = .ok projection')
    (hgroup : projection.group groupId = some group) (hno : ¬CreatesGroup limits groupId item) :
    ∃ group', projection'.group groupId = some group' ∧
      Records limits groupId item group.snapshots group'.snapshots := by
  obtain ⟨action, haction, _, rfl⟩ := applyItem_eq_ok.mp happly
  have hafter : (action.after item projection).group groupId =
      action.groupAfter item groupId (some group) := by
    rw [← hgroup]
    exact ProjectionAction.getElem?_groupsAfter
  have hsource := source_of_eventAction haction
  have hkeep : ∀ group', group'.snapshots = group.snapshots →
      (action.after item projection).group groupId = some group' →
      (∀ kind, ¬Snapshots limits item.event kind groupId) →
      ∃ group', (action.after item projection).group groupId = some group' ∧
        Records limits groupId item group.snapshots group'.snapshots :=
    fun group' hsame hgroup' hnone => ⟨group', hgroup', .inl ⟨hsame, hnone⟩⟩
  cases action with
  | createGroup target metadata =>
    have htarget : target ≠ groupId := by
      rintro rfl
      exact hno ⟨metadata, haction⟩
    simp only [ProjectionAction.groupAfter, htarget, false_and, if_false] at hafter
    refine hkeep group rfl hafter fun kind h => ?_
    rcases h.action haction with ⟨_, h⟩ | h <;> cases h
  | editMetadata target read =>
    cases read with
    | error e =>
      refine hkeep group rfl hafter fun kind h => ?_
      rcases h.action haction with ⟨_, h⟩ | h <;> cases h
    | ok metadata =>
      have hnone : ∀ kind, ¬Snapshots limits item.event kind groupId := fun kind h => by
        rcases h.action haction with ⟨_, h⟩ | h <;> cases h
      simp only [ProjectionAction.groupAfter] at hafter
      split at hafter
      · exact hkeep _ (GroupState.snapshots_updateMetadata _ _) hafter hnone
      · exact hkeep group rfl hafter hnone
  | deleteGroup target =>
    have hnone : ∀ kind, ¬Snapshots limits item.event kind groupId := fun kind h => by
      rcases h.action haction with ⟨_, h⟩ | h <;> cases h
    simp only [ProjectionAction.groupAfter] at hafter
    split at hafter
    · exact hkeep _ (GroupState.snapshots_markDeleted _ _ _) hafter hnone
    · exact hkeep group rfl hafter hnone
  | metadataSnapshot target kind metadata =>
    simp only [ProjectionAction.groupAfter] at hafter
    split at hafter
    · next htarget =>
      subst htarget
      refine ⟨_, hafter, .inr ⟨kind, hsource.1, ?_⟩⟩
      exact congrArg (GroupSnapshotIds.setForKind · kind item.event.id)
        (GroupState.snapshots_updateMetadata _ _)
    · next htarget =>
      refine hkeep group rfl hafter fun other h => ?_
      rcases h.action haction with ⟨_, h⟩ | h
      · cases h
        exact htarget rfl
      · cases h
  | otherSnapshot target kind =>
    simp only [ProjectionAction.groupAfter] at hafter
    split at hafter
    · next htarget =>
      subst htarget
      exact ⟨_, hafter, .inr ⟨kind, hsource.1, rfl⟩⟩
    · next htarget =>
      refine hkeep group rfl hafter fun other h => ?_
      rcases h.action haction with ⟨_, h⟩ | h
      · cases h
      · cases h
        exact htarget rfl
  | skip =>
    refine hkeep group rfl hafter fun kind h => ?_
    rcases h.action haction with ⟨_, h⟩ | h <;> cases h
  | ignore =>
    refine hkeep group rfl hafter fun kind h => ?_
    rcases h.action haction with ⟨_, h⟩ | h <;> cases h
  | setMember _ _ _ _ =>
    refine hkeep group rfl hafter fun kind h => ?_
    rcases h.action haction with ⟨_, h⟩ | h <;> cases h
  | deleteEvent _ _ =>
    refine hkeep group rfl hafter fun kind h => ?_
    rcases h.action haction with ⟨_, h⟩ | h <;> cases h

/-- A create that finds no later create makes the group anew. -/
theorem fresh_applyItem (happly : applyItem limits projection item = .ok projection')
    (hcreates : CreatesGroup limits groupId item)
    (hearlier : ∀ group, projection.group groupId = some group → group.createdTuple ≤ item.tuple) :
    ∃ group, projection'.group groupId = some group ∧ group.snapshots = .empty := by
  obtain ⟨metadata, hcreate⟩ := hcreates
  obtain ⟨action, haction, _, rfl⟩ := applyItem_eq_ok.mp happly
  cases haction.symm.trans hcreate
  refine ⟨ProjectionAction.freshGroup groupId metadata item, ?_, rfl⟩
  refine ProjectionAction.getElem?_groupsAfter.trans (if_pos ⟨rfl, ?_⟩)
  have hearlier : ∀ group, projection.groups[groupId]? = some group →
      group.createdTuple ≤ item.tuple := hearlier
  cases hgroup : projection.groups[groupId]? with
  | none => rfl
  | some group => exact decide_eq_true (hearlier group hgroup)

/-! ## Events one after another -/

/-- The group has recorded the last of the events that are snapshots of a kind, for each kind. -/
def RecordsLast (limits : GroupLimitsConfig) (groupId : GroupId) (items : List CanonicalGroupEvent)
    (before after : GroupSnapshotIds) : Prop :=
  ∀ kind, (∃ earlier item later, items = earlier ++ item :: later ∧
      Snapshots limits item.event kind groupId ∧
      (∀ other ∈ later, ¬Snapshots limits other.event kind groupId) ∧
      after.forKind kind = some item.event.id) ∨
    ((∀ item ∈ items, ¬Snapshots limits item.event kind groupId) ∧
      after.forKind kind = before.forKind kind)

/-- Events that do not create the group leave it with the last of their snapshots. -/
theorem recordsLast_applyItems {items : List CanonicalGroupEvent}
    (happly : applyItems limits projection items = .ok projection')
    (hgroup : projection.group groupId = some group)
    (hno : ∀ item ∈ items, ¬CreatesGroup limits groupId item) :
    ∃ group', projection'.group groupId = some group' ∧
      RecordsLast limits groupId items group.snapshots group'.snapshots := by
  induction items generalizing projection group with
  | nil =>
    cases happly
    exact ⟨group, hgroup, fun kind => .inr ⟨fun _ h => (nomatch h), rfl⟩⟩
  | cons item rest ih =>
    obtain ⟨next, hnext, hrest⟩ := Except.foldlM_cons_ok.mp happly
    obtain ⟨group₁, hgroup₁, hone⟩ := records_applyItem hnext hgroup (hno item (.head _))
    obtain ⟨group', hgroup', hlast⟩ := ih hrest hgroup₁ fun other hother =>
      hno other (.tail _ hother)
    refine ⟨group', hgroup', fun kind => ?_⟩
    rcases hlast kind with ⟨earlier, last, later, rfl, hsnapshot, hlater, hid⟩ | ⟨hnone, hsame⟩
    · exact .inl ⟨item :: earlier, last, later, rfl, hsnapshot, hlater, hid⟩
    · by_cases hsnapshot : Snapshots limits item.event kind groupId
      · refine .inl ⟨[], item, rest, rfl, hsnapshot, hnone, ?_⟩
        exact hsame.trans ((hone.forKind kind).1 hsnapshot)
      · refine .inr ⟨List.forall_mem_cons.mpr ⟨hsnapshot, hnone⟩, ?_⟩
        exact hsame.trans ((hone.forKind kind).2 hsnapshot)

/-- A create that finds no later create, and none that follows it: the group has recorded the last
snapshots after it. -/
theorem recordsLast_of_create {earlier later : List CanonicalGroupEvent}
    (happly : applyItems limits projection (earlier ++ item :: later) = .ok projection')
    (hcreates : CreatesGroup limits groupId item)
    (hearlier : ∀ middle, applyItems limits projection earlier = .ok middle → ∀ group,
      middle.group groupId = some group → group.createdTuple ≤ item.tuple)
    (hno : ∀ other ∈ later, ¬CreatesGroup limits groupId other) :
    ∃ group, projection'.group groupId = some group ∧
      RecordsLast limits groupId later .empty group.snapshots := by
  unfold applyItems at happly
  rw [List.foldlM_append] at happly
  obtain ⟨middle, hmiddle, happly⟩ := Except.bind_eq_ok.mp happly
  obtain ⟨next, hnext, hlater⟩ := Except.foldlM_cons_ok.mp happly
  obtain ⟨fresh, hfresh, hempty⟩ := fresh_applyItem hnext hcreates (hearlier middle hmiddle)
  obtain ⟨group, hgroup, hlast⟩ := recordsLast_applyItems hlater hfresh hno
  exact ⟨group, hgroup, hempty ▸ hlast⟩

/-- An event of another group leaves the group alone. -/
theorem group_applyItem_of_not (happly : applyItem limits projection item = .ok projection')
    (hnot : ¬OfGroup limits groupId item) :
      projection'.group groupId = projection.group groupId := by
  obtain ⟨action, haction, _, rfl⟩ := applyItem_eq_ok.mp happly
  have hsource := source_of_eventAction haction
  refine ProjectionAction.getElem?_groupsAfter.trans ?_
  cases action with
  | createGroup target metadata =>
    refine if_neg fun h => hnot ?_
    exact h.1 ▸ ⟨_, hsource.1, rfl⟩
  | editMetadata target read =>
    cases read with
    | error e => rfl
    | ok metadata => exact if_neg fun h : target = groupId => hnot (h ▸ ⟨_, hsource.1, rfl⟩)
  | deleteGroup target => exact if_neg fun h : target = groupId => hnot (h ▸ ⟨_, hsource.1, rfl⟩)
  | metadataSnapshot target kind metadata =>
    exact if_neg fun h : target = groupId => hnot (h ▸ hsource.1.ofGroup)
  | otherSnapshot target kind =>
    exact if_neg fun h : target = groupId => hnot (h ▸ hsource.1.ofGroup)
  | skip => rfl
  | ignore => rfl
  | setMember _ _ _ _ => rfl
  | deleteEvent _ _ => rfl

/-- Events that are not of a group leave it as it was. -/
theorem group_applyItems_of_not {items : List CanonicalGroupEvent}
    (happly : applyItems limits projection items = .ok projection')
    (hnot : ∀ item ∈ items, ¬OfGroup limits groupId item) :
    projection'.group groupId = projection.group groupId := by
  induction items generalizing projection with
  | nil => cases happly; rfl
  | cons item rest ih =>
    obtain ⟨next, hnext, hrest⟩ := Except.foldlM_cons_ok.mp happly
    rw [ih hrest fun other hother => hnot other (.tail _ hother)]
    exact group_applyItem_of_not hnext (hnot item (.head _))

/-- A group is there because of an event of it. -/
theorem ofGroup_of_group {items : List CanonicalGroupEvent}
    (happly : applyItems limits .new items = .ok projection)
    (hgroup : projection.group groupId = some group) :
    ∃ item ∈ items, OfGroup limits groupId item := by
  by_contra hno
  rw [group_applyItems_of_not happly fun item hitem hof => hno ⟨item, hitem, hof⟩] at hgroup
  simp [GroupProjection.new, GroupProjection.group] at hgroup

/-! ## Events that arrived -/

/-- The event created the group: once, and before all other events of the group. -/
structure FoundedBy (limits : GroupLimitsConfig) (events : List StoredEvent) (groupId : GroupId)
    (creator : StoredEvent) : Prop where
  stored : creator ∈ events
  creates : CreatesGroup limits groupId creator
  first : ∀ other ∈ events, OfGroup limits groupId other → creator.storeOffset ≤ other.storeOffset
  only : ∀ other ∈ events, CreatesGroup limits groupId other → other = creator

/-- Each group was created before its events. -/
def Founded (limits : GroupLimitsConfig) (events : List StoredEvent) : Prop :=
  ∀ groupId, ∀ item ∈ events, OfGroup limits groupId item →
    ∃ creator, FoundedBy limits events groupId creator

variable {events : List StoredEvent} {creator : StoredEvent}

/-- A create is no snapshot. -/
theorem CreatesGroup.not_snapshots (h : CreatesGroup limits groupId item) :
    ¬Snapshots limits item.event kind groupId := by
  intro hsnapshot
  cases h.moderates.1.symm.trans hsnapshot.1

/-- Where events are taken as they arrive, the id that is recorded is that of the snapshot that
arrived last. -/
theorem recordsLast_of_arrival (happly : applyItems limits .new events = .ok projection)
    (hordered : events.Pairwise fun a b => a.storeOffset < b.storeOffset)
    (hfounded : FoundedBy limits events groupId creator) :
    ∃ group, projection.group groupId = some group ∧ ∀ kind,
      (∃ item ∈ events, Snapshots limits item.event kind groupId ∧
        (∀ other ∈ events, Snapshots limits other.event kind groupId →
          other.storeOffset ≤ item.storeOffset) ∧
        group.snapshots.forKind kind = some item.event.id) ∨
      ((∀ item ∈ events, ¬Snapshots limits item.event kind groupId) ∧
        group.snapshots.forKind kind = none) := by
  obtain ⟨earlier, later, rfl⟩ := List.append_of_mem hfounded.stored
  obtain ⟨hearlier, hlater, hacross⟩ := List.pairwise_append.mp hordered
  obtain ⟨hafter, hlater⟩ := List.pairwise_cons.mp hlater
  have hbefore : ∀ other ∈ earlier, ¬OfGroup limits groupId other := by
    intro other hother hof
    have hlt := hacross other hother creator (List.mem_cons_self ..)
    exact absurd (hfounded.first other (List.mem_append_left _ hother) hof) (not_le.mpr hlt)
  have honce : ∀ other ∈ later, ¬CreatesGroup limits groupId other := by
    intro other hother hcreates
    have hsame := hfounded.only other (List.mem_append_right _ (.tail _ hother)) hcreates
    exact absurd (hafter other hother) (hsame ▸ lt_irrefl _)
  obtain ⟨group, hgroup, hlast⟩ := recordsLast_of_create happly hfounded.creates
    (fun middle hmiddle group hgroup => by
      obtain ⟨member, hmember, hof⟩ := ofGroup_of_group hmiddle hgroup
      exact absurd hof (hbefore member hmember)) honce
  -- the snapshots of the group come after its create
  have hwhere : ∀ kind, ∀ other ∈ earlier ++ creator :: later,
      Snapshots limits other.event kind groupId → other ∈ later := by
    intro kind other hother hsnapshot
    rcases List.mem_append.mp hother with hother | hother
    · exact absurd hsnapshot.ofGroup (hbefore other hother)
    · rcases List.mem_cons.mp hother with rfl | hother
      · exact absurd hsnapshot hfounded.creates.not_snapshots
      · exact hother
  refine ⟨group, hgroup, fun kind => ?_⟩
  rcases hlast kind with ⟨front, item, back, rfl, hsnapshot, hback, hid⟩ | ⟨hnone, hsame⟩
  · refine .inl ⟨item, ?_, hsnapshot, fun other hother hother' => ?_, hid⟩
    · simp
    · obtain ⟨_, hitem, hfront⟩ := List.pairwise_append.mp hlater
      rcases List.mem_append.mp (hwhere kind other hother hother') with hmem | hmem
      · exact le_of_lt (hfront other hmem item (List.mem_cons_self ..))
      · rcases List.mem_cons.mp hmem with rfl | hmem
        · exact le_refl _
        · exact absurd hother' (hback other hmem)
  · refine .inr ⟨fun other hother hsnapshot => ?_,
      hsame.trans (GroupSnapshotIds.forKind_empty kind)⟩
    exact hnone other (hwhere kind other hother hsnapshot) hsnapshot

/-- Where events are taken in the order of their tuples, the id that is recorded is that of the
latest snapshot, unless the create is later. -/
theorem recordsLast_of_rebuild
    (happly : applyItems limits .new (sortByTuple events) = .ok projection)
    (hordered : events.Pairwise fun a b => a.storeOffset < b.storeOffset)
    (hfounded : FoundedBy limits events groupId creator) :
    ∃ group, projection.group groupId = some group ∧ ∀ kind,
      (∃ item ∈ events, Snapshots limits item.event kind groupId ∧
        (∀ other ∈ events, Snapshots limits other.event kind groupId → other.tuple ≤ item.tuple) ∧
        creator.tuple ≤ item.tuple ∧ group.snapshots.forKind kind = some item.event.id) ∨
      ((∀ item ∈ events, Snapshots limits item.event kind groupId → item.tuple ≤ creator.tuple) ∧
        group.snapshots.forKind kind = none) := by
  have hmem : ∀ item, item ∈ sortByTuple events ↔ item ∈ events :=
    fun item => List.mem_insertionSort _
  have hsorted := pairwise_sortByTuple events
  have hnodup : (sortByTuple events).Nodup := by
    refine (List.perm_insertionSort _ events).nodup_iff.mpr (hordered.imp fun hlt heq => ?_)
    exact lt_irrefl _ (heq ▸ hlt)
  obtain ⟨earlier, later, hsplit⟩ := List.append_of_mem ((hmem creator).mpr hfounded.stored)
  simp only [hsplit, List.mem_append, List.mem_cons] at hmem
  rw [hsplit] at happly hsorted hnodup
  obtain ⟨hearlier, hlater, hacross⟩ := List.pairwise_append.mp hsorted
  obtain ⟨hafter, hlater⟩ := List.pairwise_cons.mp hlater
  have honce : ∀ other ∈ later, ¬CreatesGroup limits groupId other := by
    intro other hother hcreates
    have hsame := hfounded.only other ((hmem other).mp (.inr (.inr hother))) hcreates
    have hnot := (List.nodup_cons.mp (List.nodup_append.mp hnodup).2.1).1
    exact hnot (hsame ▸ hother)
  obtain ⟨group, hgroup, hlast⟩ := recordsLast_of_create happly hfounded.creates
    (fun middle hmiddle group hgroup => by
      have hcovers := (ProjectionCovers.new.applyItems hearlier (fun _ _ _ _ _ _ h => h.elim)
        hmiddle).groups groupId group hgroup
      obtain ⟨setter, hsetter, _, htuple⟩ := hcovers.written
      have hsetter := hsetter.resolve_left id
      exact le_trans hcovers.created
        (htuple ▸ hacross setter hsetter creator (List.mem_cons_self ..))) honce
  refine ⟨group, hgroup, fun kind => ?_⟩
  rcases hlast kind with ⟨front, item, back, rfl, hsnapshot, hback, hid⟩ | ⟨hnone, hsame⟩
  · refine .inl ⟨item, ?_, hsnapshot, fun other hother hother' => ?_, ?_, hid⟩
    · exact (hmem item).mp (by simp)
    · obtain ⟨_, hitem, hfront⟩ := List.pairwise_append.mp hlater
      rcases (hmem other).mpr hother with hmem | rfl | hmem
      · exact hacross other hmem item (by simp)
      · exact absurd hother' hfounded.creates.not_snapshots
      · rcases List.mem_append.mp hmem with hmem | hmem
        · exact hfront other hmem item (List.mem_cons_self ..)
        · rcases List.mem_cons.mp hmem with rfl | hmem
          · exact le_refl _
          · exact absurd hother' (hback other hmem)
    · exact hafter item (by simp)
  · refine .inr ⟨fun other hother hsnapshot => ?_,
      hsame.trans (GroupSnapshotIds.forKind_empty kind)⟩
    rcases (hmem other).mpr hother with hmem | rfl | hmem
    · exact hacross other hmem creator (List.mem_cons_self ..)
    · exact le_refl _
    · exact absurd hsnapshot (hnone other hmem)

/-! ## The greatest snapshot -/

/-- The stored snapshot of a kind that has the greatest tuple. -/
structure GreatestSnapshot (limits : GroupLimitsConfig) (events : List StoredEvent)
    (groupId : GroupId) (kind : Kind) (item : StoredEvent) : Prop where
  stored : item ∈ events
  snapshots : Snapshots limits item.event kind groupId
  greatest : ∀ other ∈ events, Snapshots limits other.event kind groupId →
    other.tuple ≤ item.tuple

/-- Every group has recorded the greatest snapshot of each kind, and nothing where there is none. -/
def RecordsGreatest (limits : GroupLimitsConfig) (events : List StoredEvent)
    (projection : GroupProjection) : Prop :=
  ∀ groupId group, projection.group groupId = some group → ∀ kind eventId,
    group.snapshots.forKind kind = some eventId ↔
      ∃ item, GreatestSnapshot limits events groupId kind item ∧ item.event.id = eventId

/-- The greatest snapshot of each kind and group is the one that was stored last, and the create of
the group is not later than it. -/
def SnapshotsInOrder (limits : GroupLimitsConfig) (events : List StoredEvent) : Prop :=
  ∀ groupId kind item, GreatestSnapshot limits events groupId kind item →
    (∀ other ∈ events, Snapshots limits other.event kind groupId →
      other.storeOffset ≤ item.storeOffset) ∧
    ∀ creator ∈ events, CreatesGroup limits groupId creator → creator.tuple ≤ item.tuple

/-- Where there is a snapshot there is a greatest one. -/
theorem exists_greatestSnapshot (hitem : item ∈ events)
    (hsnapshot : Snapshots limits item.event kind groupId) :
    ∃ greatest, GreatestSnapshot limits events groupId kind greatest := by
  classical
  let found := events.filter fun item => decide (Snapshots limits item.event kind groupId)
  have hmem : ∀ other, other ∈ found ↔
      other ∈ events ∧ Snapshots limits other.event kind groupId := by
    intro other
    rw [List.mem_filter, decide_eq_true_eq]
  obtain ⟨greatest, hgreatest, hle⟩ := found.toFinset.exists_max_image StoredEvent.tuple
    ⟨item, List.mem_toFinset.mpr ((hmem item).mpr ⟨hitem, hsnapshot⟩)⟩
  obtain ⟨hstored, hsnapshots⟩ := (hmem greatest).mp (List.mem_toFinset.mp hgreatest)
  exact ⟨greatest, hstored, hsnapshots, fun other hother hsnapshot =>
    hle other (List.mem_toFinset.mpr ((hmem other).mpr ⟨hother, hsnapshot⟩))⟩

/-- **When the recorded ids converge.** The events of a store, taken as they arrived and in the
order of their tuples, both leave every group with the greatest snapshots, exactly when the
snapshots arrived in their order and after their group's create. -/
theorem recordsGreatest_iff {rebuilt : GroupProjection}
    (harrived : applyItems limits .new events = .ok projection)
    (hrebuilt : applyItems limits .new (sortByTuple events) = .ok rebuilt)
    (hordered : events.Pairwise fun a b => a.storeOffset < b.storeOffset)
    (hids : events.Pairwise fun a b => a.event.id ≠ b.event.id)
    (hfounded : Founded limits events) :
    (RecordsGreatest limits events projection ∧ RecordsGreatest limits events rebuilt) ↔
      SnapshotsInOrder limits events := by
  have hoffset : ∀ a ∈ events, ∀ b ∈ events, a.storeOffset = b.storeOffset → a = b :=
    fun a ha b hb heq => List.inj_on_of_nodup_map
      (List.pairwise_map.mpr (hordered.imp fun hlt => ne_of_lt hlt)) ha hb heq
  have hid : ∀ a ∈ events, ∀ b ∈ events, a.event.id = b.event.id → a = b :=
    fun a ha b hb heq => List.inj_on_of_nodup_map (List.pairwise_map.mpr hids) ha hb heq
  have htuple : ∀ a ∈ events, ∀ b ∈ events, a.tuple = b.tuple → a = b :=
    fun a ha b hb heq => hoffset a ha b hb (congrArg ProjectionOrderTuple.storeOffset heq)
  refine ⟨fun ⟨hlive, hagain⟩ groupId kind item hgreatest => ?_, fun h => ⟨?_, ?_⟩⟩
  · obtain ⟨creator, hcreator⟩ :=
      hfounded groupId item hgreatest.stored hgreatest.snapshots.ofGroup
    refine ⟨?_, fun other hother hcreates => ?_⟩
    · obtain ⟨group, hgroup, hrecords⟩ := recordsLast_of_arrival harrived hordered hcreator
      have hright := (hlive groupId group hgroup kind _).mpr ⟨item, hgreatest, rfl⟩
      rcases hrecords kind with ⟨last, hstored, _, hlast, hrecorded⟩ | ⟨hnone, _⟩
      · rw [hright, Option.some.injEq] at hrecorded
        exact hid item hgreatest.stored last hstored hrecorded ▸ hlast
      · exact absurd hgreatest.snapshots (hnone item hgreatest.stored)
    · cases hcreator.only other hother hcreates
      obtain ⟨group, hgroup, hrecords⟩ := recordsLast_of_rebuild hrebuilt hordered hcreator
      have hright := (hagain groupId group hgroup kind _).mpr ⟨item, hgreatest, rfl⟩
      rcases hrecords kind with ⟨last, hstored, _, _, hle, hrecorded⟩ | ⟨_, hrecorded⟩
      · rw [hright, Option.some.injEq] at hrecorded
        exact hid item hgreatest.stored last hstored hrecorded ▸ hle
      · cases hright.symm.trans hrecorded
  · intro groupId group hgroup kind eventId
    obtain ⟨member, hmember, hof⟩ := ofGroup_of_group harrived hgroup
    obtain ⟨creator, hcreator⟩ := hfounded groupId member hmember hof
    obtain ⟨found, hfound, hrecords⟩ := recordsLast_of_arrival harrived hordered hcreator
    cases hgroup.symm.trans hfound
    rcases hrecords kind with ⟨last, hstored, hsnapshot, hlast, hrecorded⟩ | ⟨hnone, hrecorded⟩
    · obtain ⟨greatest, hgreatest⟩ := exists_greatestSnapshot hstored hsnapshot
      have hsame : greatest = last := hoffset _ hgreatest.stored _ hstored
        (le_antisymm (hlast _ hgreatest.stored hgreatest.snapshots)
          ((h groupId kind greatest hgreatest).1 last hstored hsnapshot))
      subst hsame
      rw [hrecorded, Option.some.injEq]
      refine ⟨fun heq => ⟨greatest, hgreatest, heq⟩, fun ⟨other, hother, heq⟩ => ?_⟩
      rw [← heq, htuple _ hother.stored _ hstored (le_antisymm
        (hgreatest.greatest _ hother.stored hother.snapshots)
        (hother.greatest _ hstored hsnapshot))]
    · rw [hrecorded]
      refine ⟨fun heq => (nomatch heq), fun ⟨other, hother, _⟩ => ?_⟩
      exact absurd hother.snapshots (hnone other hother.stored)
  · intro groupId group hgroup kind eventId
    obtain ⟨member, hmember, hof⟩ := ofGroup_of_group hrebuilt hgroup
    obtain ⟨creator, hcreator⟩ :=
      hfounded groupId member ((List.mem_insertionSort _).mp hmember) hof
    obtain ⟨found, hfound, hrecords⟩ := recordsLast_of_rebuild hrebuilt hordered hcreator
    cases hgroup.symm.trans hfound
    rcases hrecords kind with ⟨last, hstored, hsnapshot, hlast, _, hrecorded⟩ | ⟨hnone, hrecorded⟩
    · have hgreatest : GreatestSnapshot limits events groupId kind last :=
        ⟨hstored, hsnapshot, hlast⟩
      rw [hrecorded, Option.some.injEq]
      refine ⟨fun heq => ⟨last, hgreatest, heq⟩, fun ⟨other, hother, heq⟩ => ?_⟩
      rw [← heq, htuple _ hother.stored _ hstored (le_antisymm
        (hlast _ hother.stored hother.snapshots) (hother.greatest _ hstored hsnapshot))]
    · rw [hrecorded]
      refine ⟨fun heq => (nomatch heq), fun ⟨other, hother, _⟩ => ?_⟩
      have hle := (h groupId kind other hother).2 creator hcreator.stored hcreator.creates
      have hsame := htuple _ hother.stored _ hcreator.stored
        (le_antisymm (hnone other hother.stored hother.snapshots) hle)
      exact absurd (hsame ▸ hother.snapshots) hcreator.creates.not_snapshots

/-- Events that were taken as they arrived can be taken in the order of their tuples: an edit that
cannot be read fails where its group is there, and its group was there. -/
theorem applyItems_sortByTuple_succeeds
    (harrived : applyItems limits .new events = .ok projection)
    (hordered : events.Pairwise fun a b => a.storeOffset < b.storeOffset)
    (hfounded : Founded limits events) :
    (applyItems limits .new (sortByTuple events)).Succeeds := by
  refine applyItems_succeeds fun item hitem => applyItem_succeeds ?_
  have hitem := (List.mem_insertionSort _).mp hitem
  obtain ⟨earlier, later, rfl⟩ := List.append_of_mem hitem
  unfold applyItems at harrived
  rw [List.foldlM_append] at harrived
  obtain ⟨middle, hmiddle, harrived⟩ := Except.bind_eq_ok.mp harrived
  obtain ⟨next, hnext, _⟩ := Except.foldlM_cons_ok.mp harrived
  obtain ⟨action, haction, hperform, _⟩ := applyItem_eq_ok.mp hnext
  rw [haction, Except.toOption, Option.any_some]
  cases htotal : action.isTotal with
  | true => rfl
  | false =>
    obtain ⟨groupId, error, rfl⟩ : ∃ groupId error, action =
        .editMetadata groupId (.error error) := by
      unfold ProjectionAction.isTotal at htotal
      split at htotal
      · exact ⟨_, _, rfl⟩
      · cases htotal
    have hedits := source_of_eventAction haction
    obtain ⟨creator, hcreator⟩ := hfounded groupId item hitem ⟨_, hedits.1, rfl⟩
    have hne : creator ≠ item := by
      rintro rfl
      cases hedits.kind_unique hcreator.creates.moderates
    obtain ⟨hearlier, hlater, hacross⟩ := List.pairwise_append.mp hordered
    have hbefore : creator ∈ earlier := by
      rcases List.mem_append.mp hcreator.stored with hmem | hmem
      · exact hmem
      · have hmem := (List.mem_cons.mp hmem).resolve_left hne
        have hlt := (List.pairwise_cons.mp hlater).1 creator hmem
        exact absurd (hcreator.first item hitem ⟨_, hedits.1, rfl⟩) (not_le.mpr hlt)
    have hfounds : FoundedBy limits earlier groupId creator :=
      ⟨hbefore, hcreator.creates,
        fun other hother => hcreator.first other (List.mem_append_left _ hother),
        fun other hother => hcreator.only other (List.mem_append_left _ hother)⟩
    obtain ⟨group, hgroup, _⟩ := recordsLast_of_arrival hmiddle hearlier hfounds
    simp [ProjectionAction.performError, hgroup] at hperform

/-! ## More events -/

/-- What becomes of the groups depends on the groups only. -/
theorem groups_applyItem {other : GroupProjection}
    (happly : applyItem limits projection item = .ok projection')
    (hgroups : other.groups = projection.groups) :
    ∃ other', applyItem limits other item = .ok other' ∧ other'.groups = projection'.groups := by
  obtain ⟨action, haction, hperform, rfl⟩ := applyItem_eq_ok.mp happly
  refine ⟨action.after item other, applyItem_eq_ok.mpr ⟨action, haction, ?_, rfl⟩, ?_⟩
  · rw [← hperform]
    unfold ProjectionAction.performError GroupProjection.group
    rw [hgroups]
  · exact congrArg (fun groups => ProjectionAction.groupsAfter item groups action) hgroups

/-- What events do to the groups depends on the groups alone. -/
theorem groups_applyItems {items : List CanonicalGroupEvent} {other : GroupProjection}
    (happly : applyItems limits projection items = .ok projection')
    (hgroups : other.groups = projection.groups) :
    ∃ other', applyItems limits other items = .ok other' ∧ other'.groups = projection'.groups := by
  induction items generalizing projection other with
  | nil =>
    cases happly
    exact ⟨other, rfl, hgroups⟩
  | cons item rest ih =>
    obtain ⟨next, hnext, hrest⟩ := Except.foldlM_cons_ok.mp happly
    obtain ⟨otherNext, hotherNext, hgroups⟩ := groups_applyItem hnext hgroups
    obtain ⟨other', hother', hgroups⟩ := ih hrest hgroups
    exact ⟨other', Except.foldlM_cons_ok.mpr ⟨otherNext, hotherNext, hother'⟩, hgroups⟩

/-- An event is of one group at most. -/
theorem OfGroup.unique {groupId' : GroupId} (h : OfGroup limits groupId item)
    (h' : OfGroup limits groupId' item) : groupId' = groupId := by
  obtain ⟨eventClass, hclass, hgroup⟩ := h
  obtain ⟨eventClass', hclass', hgroup'⟩ := h'
  cases hclass.symm.trans hclass'
  exact Option.some.inj (hgroup'.symm.trans hgroup)

/-- The groups that are there are those of the events. -/
theorem Founded.group_iff (hfounded : Founded limits events)
    (harrived : applyItems limits .new events = .ok projection)
    (hordered : events.Pairwise fun a b => a.storeOffset < b.storeOffset) :
    (∃ group, projection.group groupId = some group) ↔
      ∃ item ∈ events, OfGroup limits groupId item := by
  refine ⟨fun ⟨group, hgroup⟩ => ofGroup_of_group harrived hgroup, fun ⟨item, hitem, hof⟩ => ?_⟩
  obtain ⟨creator, hcreator⟩ := hfounded groupId item hitem hof
  obtain ⟨group, hgroup, _⟩ := recordsLast_of_arrival harrived hordered hcreator
  exact ⟨group, hgroup⟩

/-- Later events that do not create the group again. -/
theorem FoundedBy.append {more : List StoredEvent} (h : FoundedBy limits events groupId creator)
    (hordered : (events ++ more).Pairwise fun a b => a.storeOffset < b.storeOffset)
    (hno : ∀ other ∈ more, ¬CreatesGroup limits groupId other) :
    FoundedBy limits (events ++ more) groupId creator where
  stored := List.mem_append_left _ h.stored
  creates := h.creates
  first other hother hof := by
    rcases List.mem_append.mp hother with hother | hother
    · exact h.first other hother hof
    · exact le_of_lt ((List.pairwise_append.mp hordered).2.2 creator h.stored other hother)
  only other hother hcreates := by
    rcases List.mem_append.mp hother with hother | hother
    · exact h.only other hother hcreates
    · exact absurd hcreates (hno other hother)

/-- Later events of no group. -/
theorem Founded.append_other {more : List StoredEvent} (h : Founded limits events)
    (hordered : (events ++ more).Pairwise fun a b => a.storeOffset < b.storeOffset)
    (hnot : ∀ other ∈ more, ∀ groupId, ¬OfGroup limits groupId other) :
    Founded limits (events ++ more) := by
  intro groupId item hitem hof
  rcases List.mem_append.mp hitem with hitem | hitem
  · obtain ⟨creator, hcreator⟩ := h groupId item hitem hof
    exact ⟨creator, hcreator.append hordered fun other hother hcreates =>
      hnot other hother groupId hcreates.ofGroup⟩
  · exact absurd hof (hnot item hitem groupId)

/-- An event of a group and later events of the same group that do not create it: the event creates
the group, which was not there, or the group was there. -/
theorem Founded.append_group {more : List StoredEvent} (h : Founded limits events)
    (harrived : applyItems limits .new events = .ok projection)
    (hordered : (events ++ item :: more).Pairwise fun a b => a.storeOffset < b.storeOffset)
    (hof : OfGroup limits groupId item)
    (hmore : ∀ other ∈ more, ∀ groupId', OfGroup limits groupId' other → groupId' = groupId)
    (hno : ∀ other ∈ more, ¬CreatesGroup limits groupId other)
    (hcase : (CreatesGroup limits groupId item ∧ projection.group groupId = none) ∨
      (¬CreatesGroup limits groupId item ∧ ∃ group, projection.group groupId = some group)) :
    Founded limits (events ++ item :: more) := by
  obtain ⟨hearlier, hlater, hacross⟩ := List.pairwise_append.mp hordered
  have hof' : ∀ other ∈ item :: more, ∀ groupId', OfGroup limits groupId' other →
      groupId' = groupId := by
    intro other hother groupId' hother'
    rcases List.mem_cons.mp hother with rfl | hother
    · exact hof.unique hother'
    · exact hmore other hother groupId' hother'
  -- the group of the event has its creator
  have hown : ∃ creator, FoundedBy limits (events ++ item :: more) groupId creator := by
    rcases hcase with ⟨hcreates, hnone⟩ | ⟨hnot, hgroup⟩
    · have hbefore : ∀ other ∈ events, ¬OfGroup limits groupId other := fun other hother hof => by
        obtain ⟨group, hgroup⟩ := (h.group_iff harrived hearlier).mpr ⟨other, hother, hof⟩
        cases hnone.symm.trans hgroup
      refine ⟨item, by simp, hcreates, fun other hother hof => ?_, fun other hother hother' => ?_⟩
      · rcases List.mem_append.mp hother with hother | hother
        · exact absurd hof (hbefore other hother)
        · rcases List.mem_cons.mp hother with rfl | hother
          · exact le_refl _
          · exact le_of_lt ((List.pairwise_cons.mp hlater).1 other hother)
      · rcases List.mem_append.mp hother with hother | hother
        · exact absurd hother'.ofGroup (hbefore other hother)
        · exact (List.mem_cons.mp hother).resolve_right fun hmem => hno other hmem hother'
    · obtain ⟨member, hmember, hof⟩ := (h.group_iff harrived hearlier).mp hgroup
      obtain ⟨creator, hcreator⟩ := h groupId member hmember hof
      exact ⟨creator, hcreator.append hordered (List.forall_mem_cons.mpr ⟨hnot, hno⟩)⟩
  intro groupId' other hother hother'
  rcases List.mem_append.mp hother with hother | hother
  · by_cases hsame : groupId' = groupId
    · exact hsame ▸ hown
    · obtain ⟨creator, hcreator⟩ := h groupId' other hother hother'
      refine ⟨creator, hcreator.append hordered fun last hlast hcreates => hsame ?_⟩
      exact hof' last hlast groupId' hcreates.ofGroup
  · exact hof' other hother groupId' hother' ▸ hown

end

end Tangle
