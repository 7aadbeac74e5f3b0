import Tangle.Groups.Limits

/-!
# The projection and the events behind it

What decisions depend on is the same however a projection came about: by taking events as they
arrived, by a rebuild in the order of their tuples, or by taking a suffix of them a second time.
`ProjectionCovers L₀ L p` says that `p` has seen all events of `L₀` and none that is not in `L`:
its last-writer-wins maps do, its groups are those that events of `L₀` made, and the metadata of
each is what some event set and no event of `L₀` replaced. One lemma about one event
(`ProjectionCovers.applyItem`) serves all three ways.

A create replaces a group that is there, and forgets what was set before it. This loses nothing
when no metadata that is still to count lies after the create, which is the lemma's assumption: in a
rebuild the events are in order, and while events arrive a group is created once, before all else.
-/

namespace Tangle

/-! ## What an event says about a group -/

/-- The metadata an event sets. -/
def metadataWrite (limits : GroupLimitsConfig) (item : CanonicalGroupEvent) :
    Option (GroupId × GroupMetadata) :=
  actionWrite (fun _ action => action.groupMetadata) limits item

/-- The event sets metadata of the group. -/
def SetsMetadata (limits : GroupLimitsConfig) (groupId : GroupId) (item : CanonicalGroupEvent) :
    Prop :=
  ∃ metadata, metadataWrite limits item = some (groupId, metadata)

/-- The event is a create of the group. -/
def CreatesGroup (limits : GroupLimitsConfig) (groupId : GroupId) (item : CanonicalGroupEvent) :
    Prop :=
  ∃ metadata, eventAction item.event limits = .ok (.createGroup groupId metadata)

/-- The event makes the group where it is not there. -/
def MakesGroup (limits : GroupLimitsConfig) (groupId : GroupId) (item : CanonicalGroupEvent) :
    Prop :=
  CreatesGroup limits groupId item ∨
    ∃ kind metadata, eventAction item.event limits = .ok (.metadataSnapshot groupId kind metadata)

/-- The event deletes the group. -/
def DeletesGroup (limits : GroupLimitsConfig) (groupId : GroupId) (item : CanonicalGroupEvent) :
    Prop :=
  ∃ tombstone, tombstoneField.write limits item = some (groupId, tombstone)

section
variable {limits : GroupLimitsConfig} {groupId : GroupId} {item : CanonicalGroupEvent}
  {action : ProjectionAction}

theorem metadataWrite_of_action (h : eventAction item.event limits = .ok action) :
    metadataWrite limits item = action.groupMetadata :=
  actionWrite_of_action h

theorem CreatesGroup.makes (h : CreatesGroup limits groupId item) :
    MakesGroup limits groupId item :=
  .inl h

/-- What makes a group sets its metadata. -/
theorem MakesGroup.setsMetadata (h : MakesGroup limits groupId item) :
    SetsMetadata limits groupId item := by
  rcases h with ⟨metadata, haction⟩ | ⟨kind, metadata, haction⟩
  · exact ⟨metadata, metadataWrite_of_action haction⟩
  · exact ⟨metadata, metadataWrite_of_action haction⟩

end

/-! ## One group through one event -/

namespace ProjectionAction

/-- What an action makes of one group. -/
def groupAfter (item : CanonicalGroupEvent) (groupId : GroupId) (current : Option GroupState) :
    ProjectionAction → Option GroupState
  | createGroup target metadata =>
    if target = groupId ∧ current.all fun group => decide (item.tuple ≥ group.createdTuple) then
      some (freshGroup groupId metadata item)
    else
      current
  | editMetadata target (.ok metadata) =>
    if target = groupId then
      current.map fun group => group.updateMetadata metadata item.tuple
    else
      current
  | deleteGroup target =>
    if target = groupId then
      current.map fun group => group.markDeleted item.event.createdAt item.event.id item.tuple
    else
      current
  | metadataSnapshot target kind metadata =>
    if target = groupId then
      some <| (current.elim (freshGroup groupId metadata item) fun group =>
        group.updateMetadata metadata item.tuple).setSnapshot kind item.event.id
    else
      current
  | otherSnapshot target kind =>
    if target = groupId then
      current.map fun group => group.setSnapshot kind item.event.id
    else
      current
  | skip | ignore | editMetadata _ (.error _) | setMember .. | deleteEvent .. => current

/-- An action changes its groups one by one. -/
theorem getElem?_groupsAfter {item : CanonicalGroupEvent} {groups : BTreeMap GroupId GroupState}
    {action : ProjectionAction} {groupId : GroupId} :
    (groupsAfter item groups action)[groupId]? =
      action.groupAfter item groupId groups[groupId]? := by
  cases action with
  | createGroup target metadata =>
    simp only [groupsAfter, groupAfter]
    by_cases htarget : target = groupId
    · subst htarget
      simp only [true_and]
      split
      · exact BTreeMap.getElem?_insert_self
      · rfl
    · simp only [htarget, false_and, if_false]
      split
      · exact BTreeMap.getElem?_insert_ne htarget
      · rfl
  | editMetadata target read =>
    cases read with
    | ok metadata => exact getElem?_updateGroup
    | error e => rfl
  | deleteGroup target => exact getElem?_updateGroup
  | metadataSnapshot target kind metadata =>
    simp only [groupsAfter, groupAfter]
    by_cases htarget : target = groupId
    · subst htarget
      rw [BTreeMap.getElem?_insert_self, if_pos rfl]
      cases groups[target]? with
      | none => rfl
      | some group => rfl
    · rw [BTreeMap.getElem?_insert_ne htarget, if_neg htarget]
  | otherSnapshot target kind => exact getElem?_updateGroup
  | skip => rfl
  | ignore => rfl
  | setMember _ _ _ _ => rfl
  | deleteEvent _ _ => rfl

end ProjectionAction

/-! ## Groups -/

/-- The group has seen the events of `L₀` and none that is not in `L`. -/
structure GroupCovers (limits : GroupLimitsConfig) (L₀ L : CanonicalGroupEvent → Prop)
    (groupId : GroupId) (group : GroupState) : Prop where
  id : group.id = groupId
  /-- The metadata was set by an event, whose tuple the group keeps. -/
  written : ∃ item, L item ∧ metadataWrite limits item = some (groupId, group.metadata) ∧
    item.tuple = group.metadataTuple
  latest : ∀ item, L₀ item → SetsMetadata limits groupId item → item.tuple ≤ group.metadataTuple
  created : group.createdTuple ≤ group.metadataTuple
  deleted : group.lifecycle = .deleted → ∃ item, L item ∧ DeletesGroup limits groupId item

namespace GroupCovers

variable {limits : GroupLimitsConfig} {L₀ L L' : CanonicalGroupEvent → Prop} {groupId : GroupId}
  {group : GroupState} {item : CanonicalGroupEvent} {metadata : GroupMetadata}

theorem mono {L₀' : CanonicalGroupEvent → Prop} (h : GroupCovers limits L₀ L groupId group)
    (h₀ : ∀ item, L₀' item → L₀ item) (hL : ∀ item, L item → L' item) :
    GroupCovers limits L₀' L' groupId group where
  id := h.id
  written := by
    obtain ⟨item, hitem, hwrite, htuple⟩ := h.written
    exact ⟨item, hL item hitem, hwrite, htuple⟩
  latest item hitem := h.latest item (h₀ item hitem)
  created := h.created
  deleted hdeleted := by
    obtain ⟨item, hitem, hdeletes⟩ := h.deleted hdeleted
    exact ⟨item, hL item hitem, hdeletes⟩

/-- An event that sets no metadata of the group has been seen. -/
theorem seen (h : GroupCovers limits L₀ L groupId group)
    (hno : SetsMetadata limits groupId item → item.tuple ≤ group.metadataTuple) :
    GroupCovers limits (fun other => L₀ other ∨ other = item) (fun other => L other ∨ other = item)
      groupId group := by
  have hmore := h.mono (fun _ h => h) fun other (hother : L other) =>
    (.inl hother : L other ∨ other = item)
  refine ⟨hmore.id, hmore.written, fun other hother hsets => ?_, hmore.created, hmore.deleted⟩
  rcases hother with hother | rfl
  · exact h.latest other hother hsets
  · exact hno hsets

/-- A group that an event has just made. -/
theorem fresh (hwrite : metadataWrite limits item = some (groupId, metadata))
    (hlatest : ∀ other, L₀ other → SetsMetadata limits groupId other → other.tuple ≤ item.tuple) :
    GroupCovers limits (fun other => L₀ other ∨ other = item) (fun other => L other ∨ other = item)
      groupId (ProjectionAction.freshGroup groupId metadata item) where
  id := rfl
  written := ⟨item, .inr rfl, hwrite, rfl⟩
  latest other hother hsets := by
    rcases hother with hother | rfl
    · exact hlatest other hother hsets
    · exact le_refl _
  created := le_refl _
  deleted h := nomatch h

/-- Metadata that an event sets is taken unless later metadata is there. -/
theorem updateMetadata (h : GroupCovers limits L₀ L groupId group)
    (hwrite : metadataWrite limits item = some (groupId, metadata)) :
    GroupCovers limits (fun other => L₀ other ∨ other = item) (fun other => L other ∨ other = item)
      groupId (group.updateMetadata metadata item.tuple) := by
  unfold GroupState.updateMetadata
  split
  · next hle =>
    refine ⟨h.id, ⟨item, .inr rfl, hwrite, rfl⟩, fun other hother hsets => ?_,
      le_trans h.created hle, fun hdeleted => ?_⟩
    · rcases hother with hother | rfl
      · exact le_trans (h.latest other hother hsets) hle
      · exact le_refl _
    · obtain ⟨other, hother, hdeletes⟩ := h.deleted hdeleted
      exact ⟨other, .inl hother, hdeletes⟩
  · next hlt => exact h.seen fun _ => le_of_not_ge hlt

/-- A group of the same name and metadata that is deleted only when an event deletes it. -/
theorem congr (h : GroupCovers limits L₀ L groupId group) {group' : GroupState}
    (hid : group'.id = group.id) (hmetadata : group'.metadata = group.metadata)
    (htuple : group'.metadataTuple = group.metadataTuple)
    (hcreated : group'.createdTuple = group.createdTuple)
    (hdeleted : group'.lifecycle = .deleted → group.lifecycle = .deleted ∨
      ∃ item, L item ∧ DeletesGroup limits groupId item) :
    GroupCovers limits L₀ L groupId group' where
  id := hid.trans h.id
  written := by
    obtain ⟨item, hitem, hwrite, htuple'⟩ := h.written
    exact ⟨item, hitem, hmetadata ▸ hwrite, htuple'.trans htuple.symm⟩
  latest item hitem hsets := htuple ▸ h.latest item hitem hsets
  created := by
    rw [hcreated, htuple]
    exact h.created
  deleted hlifecycle := (hdeleted hlifecycle).elim h.deleted fun hdeletes => hdeletes

end GroupCovers

/-! ## Projections -/

/-- The projection has seen the events of `L₀` and none that is not in `L`. -/
structure ProjectionCovers (limits : GroupLimitsConfig) (L₀ L : CanonicalGroupEvent → Prop)
    (projection : GroupProjection) : Prop where
  members : Lww.Covers memberField.stamp (memberField.Writes limits L₀)
    (memberField.Writes limits L) projection.members
  tombstones : Lww.Covers tombstoneField.stamp (tombstoneField.Writes limits L₀)
    (tombstoneField.Writes limits L) projection.tombstones
  eventDeletions : Lww.Covers deletionField.stamp (deletionField.Writes limits L₀)
    (deletionField.Writes limits L) projection.eventDeletions
  roles : projection.roles = ∅
  groups : ∀ groupId group, projection.group groupId = some group →
    GroupCovers limits L₀ L groupId group
  present : ∀ groupId item, L₀ item → MakesGroup limits groupId item →
    ∃ group, projection.group groupId = some group

/-- The projection has seen the events of `L` and no others. -/
abbrev ProjectionReflects (limits : GroupLimitsConfig) (L : CanonicalGroupEvent → Prop)
    (projection : GroupProjection) : Prop :=
  ProjectionCovers limits L L projection

namespace ProjectionCovers

variable {limits : GroupLimitsConfig} {L₀ L L₀' L' : CanonicalGroupEvent → Prop}
  {projection projection' : GroupProjection} {item : CanonicalGroupEvent}

theorem mono (h : ProjectionCovers limits L₀ L projection) (h₀ : ∀ item, L₀' item → L₀ item)
    (hL : ∀ item, L item → L' item) : ProjectionCovers limits L₀' L' projection where
  members := h.members.mono (fun _ _ ⟨item, hitem, hwrite⟩ => ⟨item, h₀ item hitem, hwrite⟩)
    fun _ _ ⟨item, hitem, hwrite⟩ => ⟨item, hL item hitem, hwrite⟩
  tombstones := h.tombstones.mono (fun _ _ ⟨item, hitem, hwrite⟩ => ⟨item, h₀ item hitem, hwrite⟩)
    fun _ _ ⟨item, hitem, hwrite⟩ => ⟨item, hL item hitem, hwrite⟩
  eventDeletions := h.eventDeletions.mono
    (fun _ _ ⟨item, hitem, hwrite⟩ => ⟨item, h₀ item hitem, hwrite⟩)
    fun _ _ ⟨item, hitem, hwrite⟩ => ⟨item, hL item hitem, hwrite⟩
  roles := h.roles
  groups groupId group hgroup := (h.groups groupId group hgroup).mono h₀ hL
  present groupId item hitem := h.present groupId item (h₀ item hitem)

/-- The empty projection has seen nothing. -/
theorem new : ProjectionReflects limits (fun _ => False) .new where
  members := Lww.Reflects.empty.congr (fun k v => by simp [WriteField.Writes])
    fun k v => by simp [WriteField.Writes]
  tombstones := Lww.Reflects.empty.congr (fun k v => by simp [WriteField.Writes])
    fun k v => by simp [WriteField.Writes]
  eventDeletions := Lww.Reflects.empty.congr (fun k v => by simp [WriteField.Writes])
    fun k v => by simp [WriteField.Writes]
  roles := rfl
  groups groupId group h := by simp [GroupProjection.new, GroupProjection.group] at h
  present _ _ h := h.elim

/-- One event of a last-writer-wins map. -/
theorem applyItem_field {κ ν : Type} [LinearOrder κ] (field : WriteField κ ν)
    (h : Lww.Covers field.stamp (field.Writes limits L₀) (field.Writes limits L)
      (field.get projection)) (happly : applyItem limits projection item = .ok projection') :
    Lww.Covers field.stamp (field.Writes limits fun other => L₀ other ∨ other = item)
      (field.Writes limits fun other => L other ∨ other = item) (field.get projection') := by
  have hone : Tangle.applyItems limits projection [item] = .ok projection' :=
    Except.foldlM_cons_ok.mpr ⟨projection', happly, rfl⟩
  have hwrites : ∀ (L : CanonicalGroupEvent → Prop) k v,
      field.Writes limits (fun other => L other ∨ other ∈ [item]) k v ↔
        field.Writes limits (fun other => L other ∨ other = item) k v := by
    intro L k v
    simp only [WriteField.Writes, List.mem_singleton]
  exact (field.covers limits h hone).congr (hwrites L₀) (hwrites L)

/-- One group of a projection through one event. -/
theorem applyItem_group {groupId : GroupId} {group : GroupState}
    (h : ProjectionCovers limits L₀ L projection)
    (happly : applyItem limits projection item = .ok projection')
    (hlatest : MakesGroup limits groupId item →
      CreatesGroup limits groupId item ∨ projection.group groupId = none →
      ∀ other, L₀ other → SetsMetadata limits groupId other → other.tuple ≤ item.tuple)
    (hgroup : projection'.group groupId = some group) :
    GroupCovers limits (fun other => L₀ other ∨ other = item) (fun other => L other ∨ other = item)
      groupId group := by
  obtain ⟨action, haction, _, rfl⟩ := applyItem_eq_ok.mp happly
  have hmetadata : metadataWrite limits item = action.groupMetadata :=
    metadataWrite_of_action haction
  have hdeletes : tombstoneField.write limits item = action.tombstoneWrite item :=
    @actionWrite_of_action _ _ (fun item action => action.tombstoneWrite item) _ _ _ haction
  rw [GroupProjection.group, ProjectionAction.after, ProjectionAction.getElem?_groupsAfter]
    at hgroup
  -- a group the event leaves alone
  have hkeep : ∀ {group : GroupState}, projection.groups[groupId]? = some group →
      (∀ metadata, action.groupMetadata ≠ some (groupId, metadata)) →
      GroupCovers limits (fun other => L₀ other ∨ other = item)
        (fun other => L other ∨ other = item) groupId group := by
    intro group hgroup hno
    refine (h.groups groupId group hgroup).seen ?_
    rintro ⟨metadata, hsets⟩
    exact absurd (hmetadata.symm.trans hsets) (hno metadata)
  cases action with
  | createGroup target metadata =>
    simp only [ProjectionAction.groupAfter] at hgroup
    split at hgroup
    · next hcreate =>
      obtain ⟨rfl, _⟩ := hcreate
      cases hgroup
      have hcreates : CreatesGroup limits target item := ⟨metadata, haction⟩
      exact .fresh hmetadata (hlatest hcreates.makes (.inl hcreates))
    · next hcreate =>
      by_cases htarget : target = groupId
      · subst htarget
        have hold := h.groups target group hgroup
        refine hold.seen fun _ => ?_
        -- a later create is there
        have hlt : item.tuple < group.createdTuple := by
          by_contra hge
          exact hcreate ⟨rfl, by simpa [hgroup] using not_lt.mp hge⟩
        exact le_trans (le_of_lt hlt) hold.created
      · refine hkeep hgroup fun other hother => ?_
        cases hother
        exact htarget rfl
  | editMetadata target read =>
    cases read with
    | error e => exact hkeep hgroup (by rintro _ ⟨⟩)
    | ok metadata =>
      simp only [ProjectionAction.groupAfter] at hgroup
      split at hgroup
      · next htarget =>
        subst htarget
        obtain ⟨before, hbefore, rfl⟩ := Option.map_eq_some_iff.mp hgroup
        exact (h.groups target before hbefore).updateMetadata hmetadata
      · next htarget =>
        refine hkeep hgroup fun other hother => ?_
        cases hother
        exact htarget rfl
  | deleteGroup target =>
    simp only [ProjectionAction.groupAfter] at hgroup
    split at hgroup
    · next htarget =>
      subst htarget
      obtain ⟨before, hbefore, rfl⟩ := Option.map_eq_some_iff.mp hgroup
      have hold := hkeep hbefore (by rintro _ ⟨⟩)
      unfold GroupState.markDeleted
      split
      · exact hold.congr rfl rfl rfl rfl fun _ => .inr ⟨item, .inr rfl, _, hdeletes⟩
      · exact hold
    · exact hkeep hgroup (by rintro _ ⟨⟩)
  | metadataSnapshot target kind metadata =>
    simp only [ProjectionAction.groupAfter] at hgroup
    split at hgroup
    · next htarget =>
      subst htarget
      cases hgroup
      cases hbefore : projection.groups[target]? with
      | none =>
        have hfresh := @GroupCovers.fresh limits L₀ L target item metadata hmetadata
          (hlatest (.inr ⟨kind, metadata, haction⟩) (.inr hbefore))
        exact hfresh.congr rfl rfl rfl rfl .inl
      | some before =>
        have hold := (h.groups target before hbefore).updateMetadata hmetadata
        exact hold.congr rfl rfl rfl rfl .inl
    · next htarget =>
      refine hkeep hgroup fun other hother => ?_
      cases hother
      exact htarget rfl
  | otherSnapshot target kind =>
    simp only [ProjectionAction.groupAfter] at hgroup
    split at hgroup
    · next htarget =>
      subst htarget
      obtain ⟨before, hbefore, rfl⟩ := Option.map_eq_some_iff.mp hgroup
      have hold := hkeep hbefore (by rintro _ ⟨⟩)
      exact hold.congr rfl rfl rfl rfl .inl
    · exact hkeep hgroup (by rintro _ ⟨⟩)
  | skip => exact hkeep hgroup (by rintro _ ⟨⟩)
  | ignore => exact hkeep hgroup (by rintro _ ⟨⟩)
  | setMember _ _ _ _ => exact hkeep hgroup (by rintro _ ⟨⟩)
  | deleteEvent _ _ => exact hkeep hgroup (by rintro _ ⟨⟩)

/-- A group that was there stays, and what makes a group has made it. -/
theorem present_applyItem {groupId : GroupId}
    (happly : applyItem limits projection item = .ok projection')
    (h : MakesGroup limits groupId item ∨ ∃ group, projection.group groupId = some group) :
    ∃ group, projection'.group groupId = some group := by
  obtain ⟨action, haction, _, rfl⟩ := applyItem_eq_ok.mp happly
  rw [GroupProjection.group, ProjectionAction.after, ProjectionAction.getElem?_groupsAfter]
  have hthere : (∃ group, projection.groups[groupId]? = some group) →
      ∃ group, action.groupAfter item groupId projection.groups[groupId]? = some group := by
    rintro ⟨group, hgroup⟩
    rw [hgroup]
    cases action with
    | createGroup target metadata =>
      simp only [ProjectionAction.groupAfter]
      split
      · exact ⟨_, rfl⟩
      · exact ⟨_, rfl⟩
    | editMetadata target read =>
      cases read with
      | error e => exact ⟨_, rfl⟩
      | ok metadata =>
        simp only [ProjectionAction.groupAfter]
        split
        · exact ⟨_, rfl⟩
        · exact ⟨_, rfl⟩
    | deleteGroup target =>
      simp only [ProjectionAction.groupAfter]
      split
      · exact ⟨_, rfl⟩
      · exact ⟨_, rfl⟩
    | metadataSnapshot target kind metadata =>
      simp only [ProjectionAction.groupAfter]
      split
      · exact ⟨_, rfl⟩
      · exact ⟨_, rfl⟩
    | otherSnapshot target kind =>
      simp only [ProjectionAction.groupAfter]
      split
      · exact ⟨_, rfl⟩
      · exact ⟨_, rfl⟩
    | skip => exact ⟨_, rfl⟩
    | ignore => exact ⟨_, rfl⟩
    | setMember _ _ _ _ => exact ⟨_, rfl⟩
    | deleteEvent _ _ => exact ⟨_, rfl⟩
  rcases h with h | h
  · cases hgroup : projection.groups[groupId]? with
    | some group => exact hgroup ▸ hthere ⟨group, hgroup⟩
    | none =>
      rcases h with ⟨metadata, hmake⟩ | ⟨kind, metadata, hmake⟩
      · cases haction.symm.trans hmake
        simp only [ProjectionAction.groupAfter, Option.all_none, and_self, if_true]
        exact ⟨_, rfl⟩
      · cases haction.symm.trans hmake
        simp only [ProjectionAction.groupAfter, if_true]
        exact ⟨_, rfl⟩
  · exact hthere h

/-- **One event more.** What an event makes of a projection has seen that event too, provided an
event that may make a group anew comes after all the metadata that is to count. -/
theorem applyItem (h : ProjectionCovers limits L₀ L projection)
    (happly : Tangle.applyItem limits projection item = .ok projection')
    (hlatest : ∀ groupId, MakesGroup limits groupId item →
      CreatesGroup limits groupId item ∨ projection.group groupId = none →
      ∀ other, L₀ other → SetsMetadata limits groupId other → other.tuple ≤ item.tuple) :
    ProjectionCovers limits (fun other => L₀ other ∨ other = item)
      (fun other => L other ∨ other = item) projection' where
  members := applyItem_field memberField h.members happly
  tombstones := applyItem_field tombstoneField h.tombstones happly
  eventDeletions := applyItem_field deletionField h.eventDeletions happly
  roles := by
    obtain ⟨action, _, _, rfl⟩ := applyItem_eq_ok.mp happly
    exact h.roles
  groups groupId _ hgroup := h.applyItem_group happly (hlatest groupId) hgroup
  present groupId other hother hmakes := by
    refine present_applyItem happly ?_
    rcases hother with hother | rfl
    · exact .inr (h.present groupId other hother hmakes)
    · exact .inl hmakes

end ProjectionCovers

end Tangle
