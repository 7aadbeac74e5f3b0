import Tangle.Runtime.Runs
import Tangle.Runtime.Script

/-!
# Deleted groups

A group whose deletion is stored has a tombstone in the service's memory from then on: in the run
that stored it, since taking a deletion does not fail, and after every start, whether it rebuilds
the projection or reads its rows. With the tombstone, no event of the group is accepted and all of
them are hidden but the marker of the deletion (`deletedGroup_final`).
-/

namespace Tangle

open GroupEventView

/-! ## A group with a tombstone -/

section
variable {event : PocketEvent} {eventClass : GroupEventClass} {groupId : GroupId}
  {auth : GroupAuthContext} {tombstone : GroupTombstone}

/-- No event of the group is accepted. -/
theorem GroupWritePolicy.not_accepted_of_tombstone {policy : GroupWritePolicy}
    (htombstone : policy.projection.tombstone groupId = some tombstone)
    (hgroup : eventClass.groupId = some groupId) :
    ¬(policy.checkEvent event eventClass auth).Succeeds := by
  intro haccepted
  have hinactive : ∀ group, policy.requireActiveGroup groupId ≠ .ok group := by
    intro group hactive
    obtain ⟨_, _, hnone⟩ := requireActiveGroup_eq_ok.mp hactive
    cases hnone.symm.trans htombstone
  cases eventClass with
  | nonGroup => cases hgroup
  | relayGeneratedSnapshot kind target =>
    obtain ⟨decision, haccepted⟩ := haccepted
    obtain ⟨_, _, haccepted⟩ := Except.bind_eq_ok.mp haccepted
    cases haccepted
  | normal target =>
    cases hgroup
    obtain ⟨decision, haccepted⟩ := haccepted
    obtain ⟨_, _, haccepted⟩ := Except.bind_eq_ok.mp haccepted
    obtain ⟨group, hactive, _⟩ := Except.bind_eq_ok.mp haccepted
    exact hinactive group hactive
  | moderation kind target =>
    cases hgroup
    by_cases hkind : kind.value = kindGroupCreateGroup
    · obtain ⟨decision, haccepted⟩ := haccepted
      obtain ⟨_, _, haccepted⟩ := Except.bind_eq_ok.mp haccepted
      simp only [checkModerationEvent, hkind, if_true, checkCreateGroup, GroupEventView.pubkey_eq,
        Except.ok_bind, htombstone, Option.isSome_some] at haccepted
      split at haccepted
      · cases haccepted
      · cases haccepted
    · obtain ⟨⟨group, hactive⟩, _⟩ := moderation_accepted haccepted hkind
      exact hinactive group hactive

/-- All events of the group are hidden but the one that the tombstone names. -/
theorem GroupReadGate.hidden_of_tombstone {gate : GroupReadGate} {limits : GroupLimitsConfig}
    (htombstone : gate.projection.tombstone groupId = some tombstone)
    (hclass : classifyGroupEvent event limits = .ok eventClass)
    (hgroup : eventClass.groupId = some groupId) (hmarker : event.id ≠ tombstone.deleteEventId)
    (reader : Option PublicKeyHex) : gate.screenEvent event reader limits = .ok .hidden := by
  have hnormal : gate.screenNormalEvent groupId reader = .hidden := by
    unfold screenNormalEvent
    rw [htombstone]
    cases gate.projection.group groupId with
    | none => rfl
    | some group => rfl
  have hdelete : gate.screenDeleteGroupMarker event.id groupId reader = .hidden := by
    unfold screenDeleteGroupMarker
    rw [htombstone, hnormal]
    cases gate.projection.group groupId with
    | none => rfl
    | some group =>
      have hother : (tombstone.deleteEventId != event.id) = true := bne_iff_ne.mpr (Ne.symm hmarker)
      simp only [Option.all_some, hother, if_true]
  have hsnapshot : ∀ kind, gate.screenSnapshotEvent kind groupId reader = .hidden := by
    intro kind
    unfold screenSnapshotEvent
    rw [htombstone]
    cases gate.projection.group groupId with
    | none => rfl
    | some group => rfl
  unfold screenEvent
  rw [GroupEventView.id_eq, Except.ok_bind]
  split
  · rfl
  · rw [hclass, Except.ok_bind]
    cases eventClass with
    | nonGroup => cases hgroup
    | normal target => cases hgroup; exact congrArg Except.ok hnormal
    | relayGeneratedSnapshot kind target => cases hgroup; exact congrArg Except.ok (hsnapshot _)
    | moderation kind target =>
      cases hgroup
      dsimp only
      split
      · exact congrArg Except.ok hdelete
      · exact congrArg Except.ok hnormal

end

/-! ## Rejected events -/

section
variable {relay : Relay} {event : PocketEvent} {eventClass : GroupEventClass}
  {auth : GroupAuthContext} {groups groups' : Option GroupServiceState} {store store' : PocketStore}
  {result : Except BaseRelayError BaseRelayEventWrite}

/-- What became of a submission that was rejected. -/
def Rejected (event : PocketEvent) (groups : Option GroupServiceState) (store : PocketStore)
    (result : Except BaseRelayError BaseRelayEventWrite) (groups' : Option GroupServiceState)
    (store' : PocketStore) : Prop :=
  (∃ message, result = .ok (.unstored (okRejected event.id message))) ∧ groups' = groups ∧
    store' = store

/-- A submission of a group's event that no service accepts is rejected and changes nothing. -/
theorem rejected_of_not_accepted
    (hclass : classifyGroupEvent event (groupLimits groups) = .ok eventClass)
    (hgroup : eventClass ≠ .nonGroup)
    (hpolicy : ∀ state, groups = some state →
      ¬(state.writePolicy.checkEvent event eventClass auth).Succeeds)
    (hrun : execState relay.db.handle (relay.submit event auth) groups store =
      (result, groups', store')) : Rejected event groups store result groups' store' := by
  have hsubmit : WpState relay.db.handle (· = store) (relay.submit event auth) groups store
      (fun write => Rejected event groups store (.ok write)) fun _ _ _ => False := by
    unfold Relay.submit handlePocketEvent
    split
    · exact WpState.pure rfl ⟨⟨_, rfl⟩, rfl, rfl⟩
    refine WpState.get_seq ?_
    split
    · exact WpState.pure rfl ⟨⟨_, rfl⟩, rfl, rfl⟩
    · next hgate =>
      cases hclass.symm.trans (class_of_gate hgate).1
      exact absurd rfl hgroup
    · next found _ hgate =>
      cases hclass.symm.trans (class_of_gate hgate).1
      refine WpState.get_seq ?_
      cases groups with
      | none => exact WpState.pure rfl ⟨⟨_, rfl⟩, rfl, rfl⟩
      | some state =>
        have hcheck := @GroupServiceState.wp_checkEvent relay state store event eventClass auth
          (· = store) rfl
        have hwrite : WpState relay.db.handle (· = store)
            (GroupServiceState.storeGroupPocketEvent relay.pocket event eventClass auth) state store
            (fun _ _ _ => False) fun failure state' store' =>
              (∃ error, failure = .rejected error) ∧ state' = state ∧ store' = store := by
          refine WpState.get_seq (WpState.liftProg_seq
            (Y := fun failure store' => (∃ error, failure = .rejected error) ∧ store' = store)
            (Wp.adapt (hcheck.mono (fun _ _ _ h => h) fun error _ _ hstore =>
              ⟨⟨error, rfl⟩, hstore⟩))
            (fun _ _ _ ⟨_, haccept⟩ => ?_) fun _ _ _ ⟨herror, hstore⟩ => ⟨herror, rfl, hstore⟩)
          exact absurd (policy_of_checkEvent haccept) (hpolicy state rfl)
        refine WpState.seq (wp_withGroups (Y := fun _ _ _ => False) hwrite)
          (fun result groups store' _ ⟨state', hgroups, hend⟩ => ?_) fun _ _ _ _ hX => hX.elim
        cases result with
        | ok write => exact hend.elim
        | error failure =>
          obtain ⟨⟨error, rfl⟩, rfl, rfl⟩ := hend
          exact WpState.pure rfl ⟨⟨_, rfl⟩, hgroups, rfl⟩
  have hend := hsubmit.exec hrun
  cases result with
  | ok write => exact hend
  | error error => exact hend.elim

end

/-! ## Runs -/

/-- A group's deletion, as any limits classify it. -/
theorem DeletesGroup.of_class {item : StoredEvent} {groupId : GroupId} {kind : Kind}
    {limits : GroupLimitsConfig}
    (hclass : classifyGroupEvent item.event limits = .ok (.moderation kind groupId))
    (hkind : kind.value = kindGroupDeleteGroup) : DeletesGroup .widest groupId item := by
  have hvalue : kindU32 item.event = kindGroupDeleteGroup := by
    rw [← eventKind_value, ← kind_of_class (.inl hclass)]
    exact hkind
  have haction : eventAction item.event .widest = .ok (.deleteGroup groupId) := by
    rw [eventAction, classifyGroupEvent_widest hclass, Except.ok_bind]
    simp only [classAction, moderationAction, hvalue]
  exact ⟨_, @actionWrite_of_action _ _
    (fun item action => action.tombstoneWrite item) _ _ _ haction⟩

/-- A service that is up has a tombstone of every group whose deletion is stored. -/
theorem tombstone_of_deletion {relay : Relay} {sources : Sources} {state : GroupServiceState}
    {store : PocketStore} {item : StoredEvent} {groupId : GroupId}
    (h : Serves relay sources Deletion state store) (hitem : item ∈ store.events)
    (hdeletes : DeletesGroup .widest groupId item) :
    ∃ tombstone, state.projection.tombstone groupId = some tombstone := by
  obtain ⟨written, hwrite⟩ := hdeletes
  obtain ⟨tombstone, htombstone, _⟩ :=
    h.covers.tombstones.latest ⟨item, ⟨hitem, .inl ⟨groupId, written, hwrite⟩⟩, hwrite⟩
  exact ⟨tombstone, htombstone⟩

/-- **The deletion of a group is final.** Once the deletion of a group is stored, in every
continuation of the run, by any events and over any number of starts, no event of the group is
accepted, and a service that is up has a tombstone of it and hides every event of the group, from
every reader, but the marker that the tombstone names. -/
theorem deletedGroup_final {relay : Relay} {w w' : World} {item : StoredEvent} {kind : Kind}
    {groupId : GroupId} {limits : GroupLimitsConfig}
    (hrun : relay.Leads relay.Orderly (.down .empty) w) (hitem : item ∈ w.store.events)
    (hclass : classifyGroupEvent item.event limits = .ok (.moderation kind groupId))
    (hkind : kind.value = kindGroupDeleteGroup) (hmore : relay.Leads relay.Orderly w w') :
    (∀ groups store event auth result groups' store' eventClass, w' = .up groups store →
      relay.Step w' (.submitted event auth result) (.up groups' store') →
      classifyGroupEvent event (groupLimits groups) = .ok eventClass →
      eventClass.groupId = some groupId → Rejected event groups store result groups' store') ∧
    ∀ state store, w' = .up (some state) store → ∃ tombstone,
      state.projection.tombstone groupId = some tombstone ∧
      ∀ event eventClass reader, classifyGroupEvent event state.limits = .ok eventClass →
        eventClass.groupId = some groupId → event.id ≠ tombstone.deleteEventId →
        state.readGate.screenEvent event reader state.limits = .ok .hidden := by
  have hkept := Relay.Leads.kept .onlyDeletions (fun h => ⟨h, .inl rfl⟩) (hrun.trans hmore)
  have hstored : item ∈ w'.store.events := hmore.events_prefix.subset hitem
  have hdeletes := DeletesGroup.of_class hclass hkind
  have htombstone : ∀ state store, w' = .up (some state) store → ∃ tombstone,
      state.projection.tombstone groupId = some tombstone := by
    rintro state store rfl
    exact tombstone_of_deletion hkept hstored hdeletes
  refine ⟨fun groups store event auth result groups' store' eventClass hw hstep hevent hgroup => ?_,
    fun state store hw => ?_⟩
  · subst hw
    cases hstep with
    | submitted _ hexec =>
      have hne : eventClass ≠ .nonGroup := by
        rintro rfl
        cases hgroup
      refine rejected_of_not_accepted hevent hne (fun state hstate => ?_) hexec
      subst hstate
      obtain ⟨tombstone, htombstone⟩ := htombstone state store rfl
      exact GroupWritePolicy.not_accepted_of_tombstone htombstone hgroup
  · obtain ⟨tombstone, htombstone⟩ := htombstone state store hw
    exact ⟨tombstone, htombstone, fun event eventClass reader hevent hgroup hmarker =>
      GroupReadGate.hidden_of_tombstone htombstone hevent hgroup hmarker reader⟩

/-! ## A deletion and a restart -/

namespace Sample

def deleteFarm : PocketEvent :=
  farmEvent owner 9008 20 []

/-- The group is made and deleted. -/
def farmDeleted : List ScriptLine :=
  [.start config 100, .submit (farmEvent owner 9007 10 []) (authAs owner),
    .submit deleteFarm (authAs owner)]

end Sample

section
open Sample

/-- A group is deleted and the relay restarted: the event by which its owner had created it is
hidden from the owner too. -/
theorem deletedGroup_final_restarted : ∃ w state store item,
    relay.Leads relay.Orderly (.down .empty) w ∧ item ∈ w.store.events ∧ item.event = deleteFarm ∧
      relay.Leads relay.Orderly w (.up (some state) store) ∧
      state.readGate.screenEvent (farmEvent owner 9007 10 []) (some owner) state.limits =
        .ok .hidden := by
  have hscript : relay.ScriptEnds Relay.stopsNoStart (farmDeleted ++ [.stop, .start config 200])
      fun state _ => classifyGroupEvent (farmEvent owner 9007 10 []) state.limits =
          .ok (.moderation (kindOf 9007) farm) ∧
        (state.projection.tombstone farm).any (fun tombstone =>
          decide ((farmEvent owner 9007 10 []).id ≠ tombstone.deleteEventId)) = true := by
    decide +kernel
  obtain ⟨w, state, store, hbefore, hrun, hmore, hclass, hmarker⟩ :=
    hscript.leads Relay.orderly_of_stopsNoStart
  have hstored : (relay.runScript Relay.stopsNoStart farmDeleted).any (fun w =>
      w.store.events.any fun item => decide (item.event = deleteFarm)) = true := by
    decide +kernel
  rw [hbefore] at hstored
  obtain ⟨item, hitem, heq⟩ := List.any_eq_true.mp hstored
  have hdelete : item.event = deleteFarm := of_decide_eq_true heq
  have hkind : classifyGroupEvent deleteFarm .default = .ok (.moderation (kindOf 9008) farm) := by
    decide +kernel
  obtain ⟨_, hreads⟩ := deletedGroup_final hrun hitem (hdelete ▸ hkind) rfl hmore
  obtain ⟨tombstone, htombstone, hhidden⟩ := hreads state store rfl
  rw [htombstone] at hmarker
  exact ⟨w, state, store, item, hrun, hitem, hdelete, hmore,
    hhidden _ _ (some owner) hclass rfl (of_decide_eq_true hmarker)⟩

end

end Tangle
