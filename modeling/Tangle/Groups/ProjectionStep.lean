import Tangle.Groups.Projection

/-!
# What an event does to the projection

Applying an event has two parts: reading the event, which needs no projection, and changing the
projection, which reads the event no more. `ProjectionAction` is what the first part yields and
`ProjectionAction.perform` is the second; `applyCanonicalEvent_eq` says that the two together are
`applyCanonicalEvent`. Everything later that is said about a step is said about the few actions.

An action writes at most one entry of the member, tombstone and deletion maps, by the
last-writer-wins rule (`perform_members`, `perform_tombstones`, `perform_eventDeletions`), and
changes one group at most (`perform_groups`).
-/

namespace Tangle

open GroupEventView

/-- What an event asks of the projection, as far as the event alone tells. -/
inductive ProjectionAction where
  | skip
  | ignore
  | createGroup (groupId : GroupId) (metadata : GroupMetadata)
  /-- The source reads the metadata of an edit only when the group is there. -/
  | editMetadata (groupId : GroupId) (metadata : Except GroupError GroupMetadata)
  | setMember (groupId : GroupId) (pubkey : PublicKeyHex) (status : MemberStatus)
      (roles : BTreeSet RoleName)
  | deleteEvent (groupId : GroupId) (target : EventId)
  | deleteGroup (groupId : GroupId)
  | metadataSnapshot (groupId : GroupId) (kind : Kind) (metadata : GroupMetadata)
  | otherSnapshot (groupId : GroupId) (kind : Kind)

/-- The member a put-user or remove-user event names, with its roles. -/
def memberTarget (event : PocketEvent) : Except GroupError (PublicKeyHex × BTreeSet RoleName) := do
  let target ← firstTagValue event "p"
  let pubkey ← (PublicKeyHex.new target).mapError fun reason =>
    .invalid .malformedTargetTag s!"malformed p target tag: {reason}"
  return (pubkey, ← roleTags event)

/-- The event a delete-event event names. -/
def deletionTarget (event : PocketEvent) : Except GroupError EventId := do
  (EventId.new (← firstTagValue event "e")).mapError fun reason =>
    .invalid .malformedTargetTag s!"malformed e target tag: {reason}"

/-- The action of a moderation event. -/
def moderationAction (groupId : GroupId) (event : PocketEvent) (limits : GroupLimitsConfig) :
    Except GroupError ProjectionAction :=
  match kindU32 event with
  | kindGroupCreateGroup => .createGroup groupId <$> parseGroupMetadata event limits
  | kindGroupEditMetadata => .ok (.editMetadata groupId (parseGroupMetadata event limits))
  | kindGroupPutUser =>
    (fun target => .setMember groupId target.1 .member target.2) <$> memberTarget event
  | kindGroupRemoveUser =>
    (fun target => .setMember groupId target.1 .removed target.2) <$> memberTarget event
  | kindGroupDeleteEvent => .deleteEvent groupId <$> deletionTarget event
  | kindGroupDeleteGroup => .ok (.deleteGroup groupId)
  | _ => .ok .ignore

/-- The action of an event of a class. -/
def classAction (eventClass : GroupEventClass) (event : PocketEvent)
    (limits : GroupLimitsConfig) : Except GroupError ProjectionAction :=
  match eventClass with
  | .nonGroup => .ok .skip
  | .normal _ => .ok .ignore
  | .moderation _ groupId => moderationAction groupId event limits
  | .relayGeneratedSnapshot kind groupId =>
    if kind.value = kindGroupMetadata then
      .metadataSnapshot groupId kind <$> parseGroupMetadata event limits
    else
      .ok (.otherSnapshot groupId kind)

/-- The action of an event. -/
def eventAction (event : PocketEvent) (limits : GroupLimitsConfig) :
    Except GroupError ProjectionAction := do
  classAction (← classifyGroupEvent event limits) event limits

namespace ProjectionAction

/-- The group a create or a metadata snapshot writes, where none is there. -/
def freshGroup (groupId : GroupId) (metadata : GroupMetadata) (item : CanonicalGroupEvent) :
    GroupState :=
  .new groupId metadata item.event.pubkey item.event.id item.tuple

/-- Replaces a group that is there by its image. -/
def updateGroup (groups : BTreeMap GroupId GroupState) (groupId : GroupId)
    (f : GroupState → GroupState) : BTreeMap GroupId GroupState :=
  match groups[groupId]? with
  | none => groups
  | some group => groups.insert groupId (f group)

theorem getElem?_updateGroup {groups : BTreeMap GroupId GroupState} {target groupId : GroupId}
    {f : GroupState → GroupState} : (updateGroup groups target f)[groupId]? =
      if target = groupId then groups[groupId]?.map f else groups[groupId]? := by
  unfold updateGroup
  cases htarget : groups[target]? with
  | none =>
    dsimp only
    split
    · next heq => rw [← heq, htarget]; rfl
    · rfl
  | some group =>
    dsimp only
    rw [BTreeMap.getElem?_insert]
    split
    · next heq => rw [← heq, htarget]; rfl
    · rfl

/-- The groups after an action. -/
def groupsAfter (item : CanonicalGroupEvent) (groups : BTreeMap GroupId GroupState) :
    ProjectionAction → BTreeMap GroupId GroupState
  | createGroup groupId metadata =>
    if groups[groupId]?.all fun current => decide (item.tuple ≥ current.createdTuple) then
      groups.insert groupId (freshGroup groupId metadata item)
    else
      groups
  | editMetadata groupId (.ok metadata) =>
    updateGroup groups groupId fun group => group.updateMetadata metadata item.tuple
  | deleteGroup groupId =>
    updateGroup groups groupId fun group =>
      group.markDeleted item.event.createdAt item.event.id item.tuple
  | metadataSnapshot groupId kind metadata =>
    groups.insert groupId <|
      (match groups[groupId]? with
      | some group => group.updateMetadata metadata item.tuple
      | none => freshGroup groupId metadata item).setSnapshot kind item.event.id
  | otherSnapshot groupId kind =>
    updateGroup groups groupId fun group => group.setSnapshot kind item.event.id
  | skip | ignore | editMetadata _ (.error _) | setMember .. | deleteEvent .. => groups

/-- The entry an action writes to the members. -/
def memberWrite (item : CanonicalGroupEvent) :
    ProjectionAction → Option ((GroupId ×ₗ PublicKeyHex) × MemberState)
  | setMember groupId pubkey status roles =>
    some (toLex (groupId, pubkey), ⟨pubkey, status, roles, item.event.id, item.tuple⟩)
  | _ => none

/-- The entry an action writes to the tombstones. -/
def tombstoneWrite (item : CanonicalGroupEvent) :
    ProjectionAction → Option (GroupId × GroupTombstone)
  | deleteGroup groupId =>
    some (groupId,
      ⟨groupId, item.event.id, item.event.createdAt, item.event.pubkey, item.tuple⟩)
  | _ => none

/-- The entry an action writes to the event deletions. -/
def deletionWrite (item : CanonicalGroupEvent) :
    ProjectionAction → Option (EventId × GroupEventDeletion)
  | deleteEvent groupId target =>
    some (target,
      ⟨groupId, target, item.event.id, item.event.createdAt, item.event.pubkey, item.tuple⟩)
  | _ => none

/-- An edit of unreadable metadata fails when its group is there; nothing else fails. -/
def performError (projection : GroupProjection) : ProjectionAction → Option GroupError
  | editMetadata groupId (.error error) =>
    if (projection.group groupId).isSome then some error else none
  | _ => none

/-- No projection makes the action fail. -/
def isTotal : ProjectionAction → Bool
  | editMetadata _ (.error _) => false
  | _ => true

theorem performError_of_isTotal {action : ProjectionAction} (h : action.isTotal = true)
    (projection : GroupProjection) : action.performError projection = none := by
  unfold isTotal at h
  split at h
  · cases h
  · next hne =>
    unfold performError
    split
    · next groupId error => exact absurd rfl (hne groupId error)
    · rfl

/-- The projection after an action that does not fail. -/
def after (item : CanonicalGroupEvent) (projection : GroupProjection)
    (action : ProjectionAction) : GroupProjection where
  groups := groupsAfter item projection.groups action
  members := (action.memberWrite item).elim projection.members fun write =>
    Lww.put MemberState.lastTuple projection.members write.1 write.2
  roles := projection.roles
  tombstones := (action.tombstoneWrite item).elim projection.tombstones fun write =>
    Lww.put GroupTombstone.lastTuple projection.tombstones write.1 write.2
  eventDeletions := (action.deletionWrite item).elim projection.eventDeletions fun write =>
    Lww.put GroupEventDeletion.lastTuple projection.eventDeletions write.1 write.2
  checkpoint := projection.checkpoint

/-- Runs an action. -/
def perform (item : CanonicalGroupEvent) (projection : GroupProjection)
    (action : ProjectionAction) : Except GroupError GroupProjection :=
  match action.performError projection with
  | some error => .error error
  | none => .ok (action.after item projection)

end ProjectionAction

section
variable {projection : GroupProjection} {groupId : GroupId} {item : CanonicalGroupEvent}
  {limits : GroupLimitsConfig} {status : MemberStatus}

/-- A put-user or remove-user event sets a member. -/
theorem applyMemberStatus_eq :
    Prod.snd <$> projection.applyMemberStatus groupId item.event item.tuple status =
      (fun target => (ProjectionAction.setMember groupId target.1 status target.2).after item
        projection) <$> memberTarget item.event := by
  unfold GroupProjection.applyMemberStatus memberTarget
  cases firstTagValue item.event "p" with
  | error e => rfl
  | ok target =>
    rcases hkey : PublicKeyHex.new target with e | pubkey
    · simp only [Except.ok_bind, hkey]
      rfl
    · simp only [Except.ok_bind, hkey, Except.mapError]
      cases roleTags item.event with
      | error e => rfl
      | ok roles =>
        simp only [Except.ok_bind, GroupEventView.id_eq, GroupProjection.putMember_eq]
        rfl

/-- A deletion marks the group that is there and leaves a tombstone. -/
theorem applyDeleteGroup_eq (hkind : kindU32 item.event = kindGroupDeleteGroup) :
    Prod.snd <$> projection.applyModerationEvent groupId item.event item.tuple limits =
      .ok ((ProjectionAction.deleteGroup groupId).after item projection) := by
  unfold GroupProjection.applyModerationEvent
  simp only [hkind, GroupEventView.id_eq, GroupEventView.pubkey_eq, Except.ok_bind]
  have hafter : (ProjectionAction.deleteGroup groupId).after item projection =
      { projection with
        groups := ProjectionAction.updateGroup projection.groups groupId fun group =>
          group.markDeleted item.event.createdAt item.event.id item.tuple
        tombstones := Lww.put GroupTombstone.lastTuple projection.tombstones groupId
          ⟨groupId, item.event.id, item.event.createdAt, item.event.pubkey, item.tuple⟩ } := rfl
  rw [hafter]
  unfold GroupProjection.group ProjectionAction.updateGroup Lww.put
  cases projection.groups[groupId]? with
  | none =>
    dsimp only
    split
    · rfl
    · rfl
  | some group =>
    dsimp only
    split
    · rfl
    · rfl

/-- A create enters the groups unless a group created later is there. -/
theorem applyCreateGroup_eq (hkind : kindU32 item.event = kindGroupCreateGroup) :
    Prod.snd <$> projection.applyModerationEvent groupId item.event item.tuple limits =
      (fun metadata => (ProjectionAction.createGroup groupId metadata).after item projection) <$>
        parseGroupMetadata item.event limits := by
  unfold GroupProjection.applyModerationEvent
  simp only [hkind]
  cases parseGroupMetadata item.event limits with
  | error e => rfl
  | ok metadata =>
    simp only [GroupEventView.id_eq, GroupEventView.pubkey_eq, Except.ok_bind,
      Except.functor_map_ok]
    have hafter : (ProjectionAction.createGroup groupId metadata).after item projection =
        { projection with
          groups := if projection.groups[groupId]?.all fun current =>
              decide (item.tuple ≥ current.createdTuple) then
            projection.groups.insert groupId (ProjectionAction.freshGroup groupId metadata item)
          else projection.groups } := rfl
    rw [hafter]
    unfold GroupProjection.group
    have hcreated : (GroupState.new groupId metadata item.event.pubkey item.event.id
      item.tuple).createdTuple = item.tuple := rfl
    simp only [hcreated]
    split
    · rfl
    · rfl

/-- An edit updates the group that is there and is ignored otherwise. -/
theorem applyEditMetadata_eq (hkind : kindU32 item.event = kindGroupEditMetadata) :
    Prod.snd <$> projection.applyModerationEvent groupId item.event item.tuple limits =
      (ProjectionAction.editMetadata groupId
        (parseGroupMetadata item.event limits)).perform item projection := by
  unfold GroupProjection.applyModerationEvent ProjectionAction.perform ProjectionAction.performError
  simp only [hkind]
  cases hparse : parseGroupMetadata item.event limits with
  | error e =>
    cases hgroup : projection.group groupId with
    | none => simp only [hgroup]; rfl
    | some group => simp only [hgroup]; rfl
  | ok metadata =>
    have hafter : (ProjectionAction.editMetadata groupId (.ok metadata)).after item projection =
        { projection with
          groups := ProjectionAction.updateGroup projection.groups groupId fun group =>
            group.updateMetadata metadata item.tuple } := rfl
    dsimp only
    rw [hafter]
    unfold GroupProjection.group ProjectionAction.updateGroup
    cases projection.groups[groupId]? with
    | none => rfl
    | some group => rfl

/-- A delete-event event enters the deletions. -/
theorem applyDeleteEvent_eq (hkind : kindU32 item.event = kindGroupDeleteEvent) :
    Prod.snd <$> projection.applyModerationEvent groupId item.event item.tuple limits =
      (fun target => (ProjectionAction.deleteEvent groupId target).after item projection) <$>
        deletionTarget item.event := by
  unfold GroupProjection.applyModerationEvent deletionTarget
  simp only [hkind]
  cases firstTagValue item.event "e" with
  | error e => rfl
  | ok target =>
    rcases hid : EventId.new target with e | eventId
    · simp only [Except.ok_bind, hid]
      rfl
    · simp only [Except.ok_bind, hid, Except.mapError, GroupEventView.id_eq,
        GroupEventView.pubkey_eq, GroupProjection.putEventDeletion_eq]
      rfl

/-- A moderation event performs the action that was read from it. -/
theorem applyModerationEvent_eq :
    Prod.snd <$> projection.applyModerationEvent groupId item.event item.tuple limits =
      moderationAction groupId item.event limits >>= ProjectionAction.perform item projection := by
  unfold moderationAction
  split
  · next hkind =>
    rw [applyCreateGroup_eq hkind]
    cases parseGroupMetadata item.event limits with
    | error e => rfl
    | ok metadata => rfl
  · next hkind => rw [applyEditMetadata_eq hkind, Except.ok_bind]
  · next hkind =>
    unfold GroupProjection.applyModerationEvent
    simp only [hkind]
    rw [applyMemberStatus_eq]
    cases memberTarget item.event with
    | error e => rfl
    | ok target => rfl
  · next hkind =>
    unfold GroupProjection.applyModerationEvent
    simp only [hkind]
    rw [applyMemberStatus_eq]
    cases memberTarget item.event with
    | error e => rfl
    | ok target => rfl
  · next hkind =>
    rw [applyDeleteEvent_eq hkind]
    cases deletionTarget item.event with
    | error e => rfl
    | ok target => rfl
  · next hkind => rw [applyDeleteGroup_eq hkind]; rfl
  · unfold GroupProjection.applyModerationEvent
    split <;> first | contradiction | rfl

/-- A generated snapshot performs the action that was read from it. -/
theorem applySnapshotEvent_eq {kind : Kind} :
    Prod.snd <$> projection.applySnapshotEvent groupId kind item.event item.tuple limits =
      classAction (.relayGeneratedSnapshot kind groupId) item.event limits >>=
        ProjectionAction.perform item projection := by
  unfold GroupProjection.applySnapshotEvent classAction
  dsimp only
  split
  · cases parseGroupMetadata item.event limits with
    | error e => rfl
    | ok metadata =>
      simp only [GroupEventView.id_eq, GroupEventView.pubkey_eq, Except.ok_bind,
        Except.functor_map_ok]
      have hperform : ProjectionAction.perform item projection
          (.metadataSnapshot groupId kind metadata) =
          .ok { projection with
            groups := projection.groups.insert groupId <|
              (match projection.groups[groupId]? with
              | some group => group.updateMetadata metadata item.tuple
              | none => ProjectionAction.freshGroup groupId metadata item).setSnapshot kind
                item.event.id } := rfl
      rw [hperform]
      unfold GroupProjection.group
      cases projection.groups[groupId]? with
      | none => rfl
      | some group => rfl
  · have hperform : ProjectionAction.perform item projection (.otherSnapshot groupId kind) =
        .ok { projection with
          groups := ProjectionAction.updateGroup projection.groups groupId fun group =>
            group.setSnapshot kind item.event.id } := rfl
    rw [Except.ok_bind, hperform]
    unfold GroupProjection.group ProjectionAction.updateGroup
    cases projection.groups[groupId]? with
    | none => rfl
    | some group =>
      simp only [GroupEventView.id_eq, Except.ok_bind]
      rfl

/-- **Applying an event is reading its action and performing it.** -/
theorem applyItem_eq :
    applyItem limits projection item =
      eventAction item.event limits >>= ProjectionAction.perform item projection := by
  unfold applyItem GroupProjection.applyCanonicalEvent eventAction
  cases classifyGroupEvent item.event limits with
  | error e => rfl
  | ok eventClass =>
    simp only [Except.ok_bind, ProjectionOrderTuple.fromEventView_eq]
    cases eventClass with
    | nonGroup => rfl
    | normal groupId => rfl
    | moderation kind groupId => exact applyModerationEvent_eq
    | relayGeneratedSnapshot kind groupId => exact applySnapshotEvent_eq

end

/-! ## What an action says about a group -/

namespace ProjectionAction

/-- The metadata an action may give a group. -/
def groupMetadata : ProjectionAction → Option (GroupId × GroupMetadata)
  | createGroup groupId metadata | editMetadata groupId (.ok metadata)
  | metadataSnapshot groupId _ metadata => some (groupId, metadata)
  | _ => none

/-- The metadata of an action was read from its event, which belongs to the group. -/
theorem groupMetadata_of_eventAction {event : PocketEvent} {limits : GroupLimitsConfig}
    {action : ProjectionAction} {groupId : GroupId} {metadata : GroupMetadata}
    (h : eventAction event limits = .ok action)
    (hmetadata : action.groupMetadata = some (groupId, metadata)) :
    parseGroupMetadata event limits = .ok metadata ∧ ∃ eventClass,
      classifyGroupEvent event limits = .ok eventClass ∧ eventClass.groupId = some groupId := by
  obtain ⟨eventClass, hclass, h⟩ := Except.bind_eq_ok.mp h
  cases eventClass with
  | nonGroup => cases h; cases hmetadata
  | normal groupId => cases h; cases hmetadata
  | moderation kind groupId' =>
    have hread : parseGroupMetadata event limits = .ok metadata ∧ groupId' = groupId := by
      unfold classAction moderationAction at h
      dsimp only at h
      split at h
      · obtain ⟨read, hread, rfl⟩ := Except.map_eq_ok.mp h
        cases hmetadata
        exact ⟨hread, rfl⟩
      · cases h
        cases hparse : parseGroupMetadata event limits with
        | error e => rw [hparse] at hmetadata; cases hmetadata
        | ok read => rw [hparse] at hmetadata; cases hmetadata; exact ⟨rfl, rfl⟩
      · obtain ⟨_, _, rfl⟩ := Except.map_eq_ok.mp h
        cases hmetadata
      · obtain ⟨_, _, rfl⟩ := Except.map_eq_ok.mp h
        cases hmetadata
      · obtain ⟨_, _, rfl⟩ := Except.map_eq_ok.mp h
        cases hmetadata
      · cases h
        cases hmetadata
      · cases h
        cases hmetadata
    exact ⟨hread.1, _, hclass, congrArg some hread.2⟩
  | relayGeneratedSnapshot kind groupId' =>
    unfold classAction at h
    dsimp only at h
    split at h
    · obtain ⟨read, hread, rfl⟩ := Except.map_eq_ok.mp h
      cases hmetadata
      exact ⟨hread, _, hclass, rfl⟩
    · cases h
      cases hmetadata

/-- A group after an action is a group before it, under the same name and with its own metadata or
the action's, or it is new and has the action's metadata. -/
theorem groupsAfter_cases {item : CanonicalGroupEvent} {groups : BTreeMap GroupId GroupState}
    {action : ProjectionAction} {groupId : GroupId} {group : GroupState}
    (h : (groupsAfter item groups action)[groupId]? = some group) :
    (∃ before, groups[groupId]? = some before ∧ group.id = before.id ∧
      (group.metadata = before.metadata ∨
        action.groupMetadata = some (groupId, group.metadata))) ∨
    (group.id = groupId ∧ action.groupMetadata = some (groupId, group.metadata)) := by
  have hold : ∀ {group : GroupState}, groups[groupId]? = some group →
      (∃ before, groups[groupId]? = some before ∧ group.id = before.id ∧
        (group.metadata = before.metadata ∨
          action.groupMetadata = some (groupId, group.metadata))) ∨
      (group.id = groupId ∧ action.groupMetadata = some (groupId, group.metadata)) :=
    fun {group} hgroup => .inl ⟨group, hgroup, rfl, .inl rfl⟩
  have hupdate : ∀ {target : GroupId} {f : GroupState → GroupState},
      (updateGroup groups target f)[groupId]? = some group →
      groups[groupId]? = some group ∨
        ∃ before, groups[groupId]? = some before ∧ target = groupId ∧ group = f before := by
    intro target f h
    rw [getElem?_updateGroup] at h
    split at h
    · next htarget =>
      obtain ⟨before, hbefore, rfl⟩ := Option.map_eq_some_iff.mp h
      exact .inr ⟨before, hbefore, htarget, rfl⟩
    · exact .inl h
  have hmetadata : ∀ (before : GroupState) (metadata : GroupMetadata)
    (tuple : ProjectionOrderTuple),
      (before.updateMetadata metadata tuple).id = before.id ∧
        ((before.updateMetadata metadata tuple).metadata = before.metadata ∨
          (before.updateMetadata metadata tuple).metadata = metadata) := by
    intro before metadata tuple
    unfold GroupState.updateMetadata
    split
    · exact ⟨rfl, .inr rfl⟩
    · exact ⟨rfl, .inl rfl⟩
  cases action with
  | createGroup target metadata =>
    simp only [groupsAfter] at h
    split at h
    · rw [BTreeMap.getElem?_insert] at h
      split at h
      · next htarget =>
        subst htarget
        cases h
        exact .inr ⟨rfl, rfl⟩
      · exact hold h
    · exact hold h
  | editMetadata target metadata =>
    cases metadata with
    | error e => exact hold h
    | ok metadata =>
      rcases hupdate h with h | ⟨before, hbefore, rfl, rfl⟩
      · exact hold h
      · obtain ⟨hid, hcases⟩ := hmetadata before metadata item.tuple
        exact .inl ⟨before, hbefore, hid, hcases.imp_right fun heq => by rw [heq]; rfl⟩
  | deleteGroup target =>
    rcases hupdate h with h | ⟨before, hbefore, rfl, rfl⟩
    · exact hold h
    · refine .inl ⟨before, hbefore, ?_⟩
      unfold GroupState.markDeleted
      split
      · exact ⟨rfl, .inl rfl⟩
      · exact ⟨rfl, .inl rfl⟩
  | metadataSnapshot target kind metadata =>
    simp only [groupsAfter] at h
    rw [BTreeMap.getElem?_insert] at h
    split at h
    · next htarget =>
      subst htarget
      cases hbefore : groups[target]? with
      | none =>
        rw [hbefore] at h
        cases h
        exact .inr ⟨rfl, rfl⟩
      | some before =>
        rw [hbefore] at h
        cases h
        obtain ⟨hid, hcases⟩ := hmetadata before metadata item.tuple
        refine .inl ⟨before, rfl, hid, hcases.imp_right fun heq => ?_⟩
        exact congrArg (fun m => some (target, m)) heq.symm
    · exact hold h
  | otherSnapshot target kind =>
    rcases hupdate h with h | ⟨before, hbefore, rfl, rfl⟩
    · exact hold h
    · exact .inl ⟨before, hbefore, rfl, .inl rfl⟩
  | skip => exact hold h
  | ignore => exact hold h
  | setMember _ _ _ _ => exact hold h
  | deleteEvent _ _ => exact hold h

end ProjectionAction

end Tangle
