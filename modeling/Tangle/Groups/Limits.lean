import Tangle.Groups.ProjectionMaps

/-!
# Readings under different limits

A relay may be started again with other limits. A limit only makes a reading fail: what an event's
tags are read as does not depend on it. So whatever was read under some limits is read alike under
the widest ones (`applyItem_widest`), and projections that were built under different limits are
compared as if both had been built under these.
-/

namespace Tangle

open GroupEventView

/-- The limits at the ends of their types. -/
def GroupLimitsConfig.widest : GroupLimitsConfig where
  maxGroupIdBytes := 65535
  maxGroupTagsPerEvent := 65535
  maxSupportedKinds := 65535
  maxMemberListPubkeys := 4294967295
  maxOutboxReplayBatch := 4294967295

variable {limits : GroupLimitsConfig} {event : PocketEvent}

/-- A walk that ends still does with a visitor that fails less. -/
theorem visitTags_mono {σ : Type} {f g : σ → GroupEventTag → Except GroupError σ} {start s : σ}
    (hfg : ∀ s tag s', f s tag = .ok s' → g s tag = .ok s')
    (h : visitTags event f start = .ok s) : visitTags event g start = .ok s := by
  obtain ⟨tags, htags, hfold⟩ := visitTags_eq_ok.mp h
  exact visitTags_eq_ok.mpr ⟨tags, htags, Except.foldlM_mono hfg hfold⟩

/-! ## Classes -/

/-- A group's id within some limits is one within the widest. -/
theorem newWithMaxBytes_widest {value : Text} {groupId : GroupId}
    (h : GroupId.newWithMaxBytes value limits.maxGroupIdBytes.toNat = .ok groupId) :
    GroupId.newWithMaxBytes value GroupLimitsConfig.widest.maxGroupIdBytes.toNat = .ok groupId := by
  obtain ⟨htext, hlen⟩ := GroupId.newWithMaxBytes_eq_ok.mp h
  have hmax : limits.maxGroupIdBytes.toNat ≤ 65535 := Nat.le_of_lt_succ (UInt16.toNat_lt _)
  exact GroupId.newWithMaxBytes_eq_ok.mpr ⟨htext, le_trans hlen hmax⟩

/-- A tag extracted within some limits is extracted within the widest. -/
theorem extractGroupTag_widest {name : GroupTagName} {groupTag : Option GroupTag}
    (h : extractGroupTag event name limits = .ok groupTag) :
    extractGroupTag event name .widest = .ok groupTag := by
  obtain ⟨found, hfound, h⟩ := Except.bind_eq_ok.mp h
  cases h
  refine Except.bind_eq_ok.mpr ⟨found, visitTags_mono (fun found tag next hnext => ?_) hfound, rfl⟩
  split at hnext
  · next hname =>
    rw [if_pos hname]
    split at hnext
    · cases hnext
    · next value hpair =>
      obtain ⟨groupId, hgroupId, hnext⟩ := Except.bind_eq_ok.mp hnext
      simp only [newWithMaxBytes_widest hgroupId, Except.ok_bind]
      exact hnext
  · next hname =>
    rw [if_neg hname]
    exact hnext

/-- A tag required within some limits is required within the widest. -/
theorem requireGroupTag_widest {name : GroupTagName} {groupTag : GroupTag}
    (h : requireGroupTag event name limits = .ok groupTag) :
    requireGroupTag event name .widest = .ok groupTag := by
  have hfound := extractGroupTag_widest (extractGroupTag_of_require h)
  unfold requireGroupTag
  rw [hfound]
  rfl

/-- The class of an event is the same under the widest limits. -/
theorem classifyGroupEvent_widest {eventClass : GroupEventClass}
    (h : classifyGroupEvent event limits = .ok eventClass) :
    classifyGroupEvent event .widest = .ok eventClass := by
  unfold classifyGroupEvent at h ⊢
  rw [GroupEventView.kind_eq, Except.ok_bind] at h ⊢
  split
  · next hkind =>
    rw [if_pos hkind] at h
    obtain ⟨groupTag, htag, h⟩ := Except.bind_eq_ok.mp h
    rw [requireGroupTag_widest htag]
    exact h
  next hsnapshot =>
  rw [if_neg hsnapshot] at h
  split
  · next hkind =>
    rw [if_pos hkind] at h
    obtain ⟨groupTag, htag, h⟩ := Except.bind_eq_ok.mp h
    rw [requireGroupTag_widest htag]
    exact h
  next hmoderation =>
  rw [if_neg hmoderation] at h
  split
  · next hkind =>
    rw [if_pos hkind] at h
    obtain ⟨groupTag, htag, h⟩ := Except.bind_eq_ok.mp h
    rw [requireGroupTag_widest htag]
    exact h
  next hrequest =>
  rw [if_neg hrequest] at h
  obtain ⟨has, hhas, h⟩ := Except.bind_eq_ok.mp h
  rw [hhas, Except.ok_bind]
  split
  · next htrue =>
    rw [if_pos htrue] at h
    obtain ⟨found, hfound, h⟩ := Except.bind_eq_ok.mp h
    rw [extractGroupTag_widest hfound]
    exact h
  · next hfalse =>
    rw [if_neg hfalse] at h
    exact h

/-! ## Metadata -/

/-- Kinds parsed within some limits are parsed within the widest. -/
theorem parseSupportedKindsTag_widest {tag : GroupEventTag} {kinds : SupportedKinds}
    (h : parseSupportedKindsTag tag limits = .ok kinds) :
    parseSupportedKindsTag tag .widest = .ok kinds := by
  unfold parseSupportedKindsTag at h ⊢
  dsimp only at h ⊢
  split
  · next hempty => rw [if_pos hempty] at h; exact h
  next hempty =>
  rw [if_neg hempty] at h
  split at h
  · cases h
  next hlimit =>
  have hmax : limits.maxSupportedKinds.toNat ≤ 65535 := Nat.le_of_lt_succ (UInt16.toNat_lt _)
  have hwide : ¬(tag.values.drop 1).length > GroupLimitsConfig.widest.maxSupportedKinds.toNat :=
    not_lt.mpr (le_trans (not_lt.mp hlimit) hmax)
  rw [if_neg hwide]
  exact h

/-- A tag visited within some limits is visited within the widest. -/
theorem MetadataBuilder.visit_widest {builder next : MetadataBuilder} {tag : GroupEventTag}
    (h : builder.visit limits tag = .ok next) : builder.visit .widest tag = .ok next := by
  by_cases hkinds : tag.isNamed "supported_kinds" = true
  · have hne : ∀ name ∈ ["name", "picture", "about", "private", "restricted", "hidden", "closed"],
        tag.isNamed name = false := fun name hname =>
      GroupEventTag.isNamed_eq_false hkinds (by revert name; decide)
    simp only [MetadataBuilder.visit, hne _ (by decide : "name" ∈ _), hkinds, if_true,
      Bool.false_eq_true, if_false, hne _ (by decide : "picture" ∈ _),
      hne _ (by decide : "about" ∈ _), hne _ (by decide : "private" ∈ _),
      hne _ (by decide : "restricted" ∈ _), hne _ (by decide : "hidden" ∈ _),
      hne _ (by decide : "closed" ∈ _)] at h ⊢
    split at h
    · cases h
    · next hnone =>
      rw [if_neg hnone]
      obtain ⟨kinds, hread, h⟩ := Except.bind_eq_ok.mp h
      rw [parseSupportedKindsTag_widest hread]
      exact h
  · simpa only [MetadataBuilder.visit, hkinds, Bool.false_eq_true, if_false] using h

/-- The metadata of an event is the same under the widest limits. -/
theorem parseGroupMetadata_widest {metadata : GroupMetadata}
    (h : parseGroupMetadata event limits = .ok metadata) :
    parseGroupMetadata event .widest = .ok metadata := by
  obtain ⟨builder, hbuilder, h⟩ := Except.bind_eq_ok.mp h
  exact Except.bind_eq_ok.mpr ⟨builder,
    visitTags_mono (fun _ _ _ => MetadataBuilder.visit_widest) hbuilder, h⟩

/-! ## Steps of the projection -/

/-- The action of an event is the same under the widest limits, unless its metadata could not be
read. -/
theorem eventAction_widest {action : ProjectionAction} (h : eventAction event limits = .ok action)
    (htotal : action.isTotal = true) : eventAction event .widest = .ok action := by
  obtain ⟨eventClass, hclass, h⟩ := Except.bind_eq_ok.mp h
  refine Except.bind_eq_ok.mpr ⟨eventClass, classifyGroupEvent_widest hclass, ?_⟩
  cases eventClass with
  | nonGroup => exact h
  | normal groupId => exact h
  | moderation kind groupId =>
    unfold classAction moderationAction at h ⊢
    dsimp only at h ⊢
    split at h
    · obtain ⟨metadata, hmetadata, rfl⟩ := Except.map_eq_ok.mp h
      simp only [*, parseGroupMetadata_widest hmetadata, Except.functor_map_ok]
    · cases h
      cases hmetadata : parseGroupMetadata event limits with
      | error e => rw [hmetadata] at htotal; cases htotal
      | ok metadata => simp only [*, parseGroupMetadata_widest hmetadata]
    all_goals simp only [*]
  | relayGeneratedSnapshot kind groupId =>
    unfold classAction at h ⊢
    dsimp only at h ⊢
    split at h
    · next hkind =>
      obtain ⟨metadata, hmetadata, rfl⟩ := Except.map_eq_ok.mp h
      rw [if_pos hkind, parseGroupMetadata_widest hmetadata]
      rfl
    · next hkind =>
      rw [if_neg hkind]
      exact h

/-- An edit is an edit under the widest limits, whatever its metadata. -/
theorem eventAction_widest_edit {groupId : GroupId} {read : Except GroupError GroupMetadata}
    (h : eventAction event limits = .ok (.editMetadata groupId read)) :
    ∃ read', eventAction event .widest = .ok (.editMetadata groupId read') := by
  obtain ⟨eventClass, hclass, h⟩ := Except.bind_eq_ok.mp h
  have hwide := classifyGroupEvent_widest hclass
  cases eventClass with
  | nonGroup => cases h
  | normal groupId => cases h
  | moderation kind groupId' =>
    unfold classAction moderationAction at h
    dsimp only at h
    split at h
    · obtain ⟨_, _, h⟩ := Except.map_eq_ok.mp h
      cases h
    · next hkind =>
      cases h
      refine ⟨parseGroupMetadata event .widest, Except.bind_eq_ok.mpr ⟨_, hwide, ?_⟩⟩
      simp only [classAction, moderationAction, hkind]
    · obtain ⟨_, _, h⟩ := Except.map_eq_ok.mp h
      cases h
    · obtain ⟨_, _, h⟩ := Except.map_eq_ok.mp h
      cases h
    · obtain ⟨_, _, h⟩ := Except.map_eq_ok.mp h
      cases h
    · cases h
    · cases h
  | relayGeneratedSnapshot kind groupId' =>
    unfold classAction at h
    dsimp only at h
    split at h
    · obtain ⟨_, _, h⟩ := Except.map_eq_ok.mp h
      cases h
    · cases h

/-- An edit of a group that is not there leaves everything as it is. -/
theorem perform_editMetadata_of_none {projection : GroupProjection} {item : CanonicalGroupEvent}
    {groupId : GroupId} (hnone : projection.group groupId = none)
    (read : Except GroupError GroupMetadata) :
    ProjectionAction.perform item projection (.editMetadata groupId read) = .ok projection := by
  rw [GroupProjection.group] at hnone
  cases read with
  | error e =>
    unfold ProjectionAction.perform ProjectionAction.performError
    simp only [GroupProjection.group, hnone, Option.isSome_none, Bool.false_eq_true, if_false]
    rfl
  | ok metadata =>
    have hgroups : ProjectionAction.updateGroup projection.groups groupId
        (fun group => group.updateMetadata metadata item.tuple) = projection.groups := by
      unfold ProjectionAction.updateGroup
      rw [hnone]
    have hafter : (ProjectionAction.editMetadata groupId (.ok metadata)).after item projection =
        { projection with
          groups := ProjectionAction.updateGroup projection.groups groupId fun group =>
            group.updateMetadata metadata item.tuple } := rfl
    unfold ProjectionAction.perform ProjectionAction.performError
    dsimp only
    rw [hafter, hgroups]

/-- **Applying an event is the same step under the widest limits.** -/
theorem applyItem_widest {projection projection' : GroupProjection} {item : CanonicalGroupEvent}
    (h : applyItem limits projection item = .ok projection') :
    applyItem .widest projection item = .ok projection' := by
  obtain ⟨action, haction, hperform⟩ := Except.bind_eq_ok.mp (applyItem_eq ▸ h)
  rw [applyItem_eq]
  cases htotal : action.isTotal with
  | true => exact Except.bind_eq_ok.mpr ⟨action, eventAction_widest haction htotal, hperform⟩
  | false =>
    cases action with
    | editMetadata groupId read =>
      cases read with
      | ok metadata => cases htotal
      | error e =>
        have hnone : projection.group groupId = none := by
          unfold ProjectionAction.perform ProjectionAction.performError at hperform
          cases hgroup : projection.group groupId with
          | none => rfl
          | some group => simp [hgroup] at hperform
        obtain ⟨read', hread'⟩ := eventAction_widest_edit haction
        rw [perform_editMetadata_of_none hnone] at hperform
        refine Except.bind_eq_ok.mpr ⟨_, hread', ?_⟩
        rw [perform_editMetadata_of_none hnone, hperform]
    | _ => cases htotal

/-- Events applied within some limits are applied within the widest. -/
theorem applyItems_widest {projection projection' : GroupProjection}
    {items : List CanonicalGroupEvent} (h : applyItems limits projection items = .ok projection') :
    applyItems .widest projection items = .ok projection' :=
  Except.foldlM_mono (fun _ _ _ => applyItem_widest) h

end Tangle
