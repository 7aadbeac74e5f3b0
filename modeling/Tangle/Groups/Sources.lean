import Tangle.Groups.Arrival

/-!
# Which events do what

The action of an event tells its class and its kind (`source_of_eventAction`), so what an event does
to a projection is known from these two: a create or an edit of metadata is a client's moderation
event, a group is deleted by one kind of event only, and a snapshot sets metadata only when it is a
metadata snapshot, which makes the group where it is not there.
-/

namespace Tangle

open GroupEventView

variable {limits : GroupLimitsConfig} {event : PocketEvent} {item : StoredEvent}
  {groupId : GroupId}

/-- The event is a moderation event of the kind and of the group. -/
def Moderates (limits : GroupLimitsConfig) (event : PocketEvent) (kind : Nat)
    (groupId : GroupId) : Prop :=
  classifyGroupEvent event limits = .ok (.moderation (eventKind event) groupId) ∧
    kindU32 event = kind

/-- The event is a snapshot of the group. -/
def Snapshots (limits : GroupLimitsConfig) (event : PocketEvent) (kind : Kind)
    (groupId : GroupId) : Prop :=
  classifyGroupEvent event limits = .ok (.relayGeneratedSnapshot kind groupId) ∧
    kind.value = kindU32 event

/-- What an action tells of its event. -/
def ActionSource (limits : GroupLimitsConfig) (event : PocketEvent) : ProjectionAction → Prop
  | .skip => classifyGroupEvent event limits = .ok .nonGroup
  | .ignore => ∃ eventClass, classifyGroupEvent event limits = .ok eventClass
  | .createGroup groupId _ => Moderates limits event kindGroupCreateGroup groupId
  | .editMetadata groupId _ => Moderates limits event kindGroupEditMetadata groupId
  | .setMember groupId _ .member _ => Moderates limits event kindGroupPutUser groupId
  | .setMember groupId _ .removed _ => Moderates limits event kindGroupRemoveUser groupId
  | .deleteEvent groupId _ => Moderates limits event kindGroupDeleteEvent groupId
  | .deleteGroup groupId => Moderates limits event kindGroupDeleteGroup groupId
  | .metadataSnapshot groupId kind _ =>
    Snapshots limits event kind groupId ∧ kind.value = kindGroupMetadata
  | .otherSnapshot groupId kind =>
    Snapshots limits event kind groupId ∧ kind.value ≠ kindGroupMetadata

theorem source_of_eventAction {action : ProjectionAction}
    (h : eventAction event limits = .ok action) : ActionSource limits event action := by
  obtain ⟨eventClass, hclass, h⟩ := Except.bind_eq_ok.mp h
  cases eventClass with
  | nonGroup => cases h; exact hclass
  | normal groupId => cases h; exact ⟨_, hclass⟩
  | relayGeneratedSnapshot kind groupId =>
    have hkind : kind.value = kindU32 event := congrArg Kind.value (kind_of_class (.inr hclass))
    unfold classAction at h
    dsimp only at h
    split at h
    · next hmetadata =>
      obtain ⟨_, _, rfl⟩ := Except.map_eq_ok.mp h
      exact ⟨⟨hclass, hkind⟩, hmetadata⟩
    · next hother =>
      cases h
      exact ⟨⟨hclass, hkind⟩, hother⟩
  | moderation kind groupId =>
    obtain rfl := kind_of_class (.inl hclass)
    unfold classAction moderationAction at h
    dsimp only at h
    split at h
    · next hkind => obtain ⟨_, _, rfl⟩ := Except.map_eq_ok.mp h; exact ⟨hclass, hkind⟩
    · next hkind => cases h; exact ⟨hclass, hkind⟩
    · next hkind => obtain ⟨_, _, rfl⟩ := Except.map_eq_ok.mp h; exact ⟨hclass, hkind⟩
    · next hkind => obtain ⟨_, _, rfl⟩ := Except.map_eq_ok.mp h; exact ⟨hclass, hkind⟩
    · next hkind => obtain ⟨_, _, rfl⟩ := Except.map_eq_ok.mp h; exact ⟨hclass, hkind⟩
    · next hkind => cases h; exact ⟨hclass, hkind⟩
    · cases h; exact ⟨_, hclass⟩

/-- A group is created by a client's create. -/
theorem CreatesGroup.moderates (h : CreatesGroup limits groupId item) :
    Moderates limits item.event kindGroupCreateGroup groupId := by
  obtain ⟨metadata, haction⟩ := h
  exact source_of_eventAction haction

/-- A group is deleted by a client's deletion. -/
theorem DeletesGroup.moderates (h : DeletesGroup limits groupId item) :
    Moderates limits item.event kindGroupDeleteGroup groupId := by
  obtain ⟨tombstone, hwrite⟩ := h
  exact source_of_eventAction (tombstoneField_write hwrite).1

/-- Metadata is set by what makes the group, or by an edit. -/
theorem SetsMetadata.makes_or_edits (h : SetsMetadata limits groupId item) :
    MakesGroup limits groupId item ∨
      Moderates limits item.event kindGroupEditMetadata groupId := by
  obtain ⟨metadata, hwrite⟩ := h
  obtain ⟨action, haction, hwrite⟩ := (@actionWrite_eq_some _ _
    (fun _ action => action.groupMetadata) _ _ _ _).mp hwrite
  cases action with
  | createGroup target metadata => cases hwrite; exact .inl (.inl ⟨_, haction⟩)
  | editMetadata target read =>
    cases read with
    | ok metadata => cases hwrite; exact .inr (source_of_eventAction haction)
    | error e => cases hwrite
  | metadataSnapshot target kind metadata => cases hwrite; exact .inl (.inr ⟨_, _, haction⟩)
  | _ => cases hwrite

/-- An event has one kind. -/
theorem Moderates.kind_unique {kind kind' : Nat} {groupId' : GroupId}
    (h : Moderates limits event kind groupId) (h' : Moderates limits event kind' groupId') :
    kind = kind' :=
  h.2.symm.trans h'.2

theorem Moderates.widest {kind : Nat} (h : Moderates limits event kind groupId) :
    Moderates .widest event kind groupId :=
  ⟨classifyGroupEvent_widest h.1, h.2⟩

/-- A deletion of a group sets no metadata. -/
theorem DeletesGroup.not_setsMetadata {groupId' : GroupId} (h : DeletesGroup limits groupId item) :
    ¬SetsMetadata limits groupId' item := by
  rintro ⟨metadata, hwrite⟩
  obtain ⟨tombstone, hdelete⟩ := h
  cases (metadataWrite_of_action (tombstoneField_write hdelete).1).symm.trans hwrite

/-- A deletion of a group is taken under any limits that classify it. -/
theorem DeletesGroup.action {eventClass : GroupEventClass}
    (h : DeletesGroup .widest groupId item)
    (hclass : classifyGroupEvent item.event limits = .ok eventClass) :
    eventAction item.event limits = .ok (.deleteGroup groupId) := by
  obtain ⟨hwide, hkind⟩ := h.moderates
  cases (classifyGroupEvent_widest hclass).symm.trans hwide
  rw [eventAction, hclass, Except.ok_bind]
  simp only [classAction, moderationAction, hkind]

end Tangle
