import Tangle.Runtime.EventDeletions
import Tangle.Runtime.Runs

/-!
# Events submitted again

A client that did not see the answer to an event submits the event again. A plain event that is
found in the store is answered as a duplicate. An event of a group is checked before the store is
asked: by the write policy, on the state that the event itself and later writes have left, and, when
it deletes an event, for its target. It is answered as a duplicate when these checks accept it once
more (`AcceptsAgain`), and refused when they do not; nothing changes either way
(`submit_again`).
-/

namespace Tangle

open GroupEventView GroupServiceState

/-- The target of a deletion is found in the store, in the group. -/
def TargetFound (db : PocketDb) (limits : GroupLimitsConfig) (events : List StoredEvent)
    (event : PocketEvent) (groupId : GroupId) : Prop :=
  ∃ target found eventClass, deleteTargetEventId event = .ok target ∧
    db.findById events target = some found ∧ classifyGroupEvent found limits = .ok eventClass ∧
    eventClass.groupId = some groupId

/-- The checks that a service makes before it asks the store for the event accept the event. -/
structure GroupServiceState.AcceptsAgain (db : PocketDb) (state : GroupServiceState)
    (events : List StoredEvent) (event : PocketEvent) (eventClass : GroupEventClass)
    (auth : GroupAuthContext) : Prop where
  policy : (state.writePolicy.checkEvent event eventClass auth).Succeeds
  target : ∀ kind groupId, eventClass = .moderation kind groupId →
    kind.value = kindGroupDeleteEvent → TargetFound db state.limits events event groupId

/-- The structure gate accepts the event and, when the event is of a group, so does a service. -/
def AcceptsAgain (db : PocketDb) (groups : Option GroupServiceState) (events : List StoredEvent)
    (event : PocketEvent) (auth : GroupAuthContext) : Prop :=
  ∃ eventClass, validateClientGroupEventStructure event (groupLimits groups) = .ok eventClass ∧
    (eventClass ≠ .nonGroup → ∃ state, groups = some state ∧
      state.AcceptsAgain db events event eventClass auth)

/-- The answer to an event that is in the store. -/
def duplicateWrite (event : PocketEvent) : BaseRelayEventWrite :=
  .unstored (okAccepted event.id "duplicate: already have this event")

section
variable {relay : Relay} {groups : Option GroupServiceState} {state : GroupServiceState}
  {store : PocketStore} {event : PocketEvent} {eventClass : GroupEventClass} {groupId : GroupId}
  {auth auth₀ : GroupAuthContext}

/-! ## The checks of the service -/

/-- The check of a deletion's target passes when the target is found in the group. -/
theorem exec_checkDeleteEventTarget :
    (exec relay.db.handle (state.checkDeleteEventTarget event groupId) store).1 = .ok () ↔
      TargetFound relay.db state.limits store.events event groupId := by
  refine ⟨target_of_checkDelete,
    fun ⟨target, found, eventClass, htarget, hfind, hclass, hgroup⟩ => ?_⟩
  rw [checkDeleteEventTarget, exec_bind, exec_liftExcept, htarget]
  dsimp only
  rw [exec_bind, exec_eventById, hfind]
  dsimp only
  rw [exec_bind, exec_liftExcept, hclass]
  dsimp only
  rw [if_neg (not_not_intro hgroup)]
  rfl

/-- The checks before the store is asked pass when they accept the event. -/
theorem exec_checkEvent :
    (exec relay.db.handle (state.checkEvent event eventClass auth) store).1 = .ok () ↔
      state.AcceptsAgain relay.db store.events event eventClass auth := by
  rw [checkEvent, exec_bind, exec_liftExcept]
  cases hpolicy : state.writePolicy.checkEvent event eventClass auth with
  | error e =>
    refine ⟨fun h => (by cases h), fun haccepts => ?_⟩
    obtain ⟨decision, hdecision⟩ := haccepts.policy
    rw [hpolicy] at hdecision
    cases hdecision
  | ok decision =>
    have hsucceeds : (state.writePolicy.checkEvent event eventClass auth).Succeeds :=
      ⟨decision, hpolicy⟩
    dsimp only
    cases eventClass with
    | moderation kind groupId =>
      by_cases hkind : kind.value = kindGroupDeleteEvent
      · simp only [checkRuntimeWriteConstraints, hkind, if_true]
        rw [exec_checkDeleteEventTarget]
        refine ⟨fun hfound => ⟨hsucceeds, fun _ _ heq _ => ?_⟩,
          fun haccepts => haccepts.target _ _ rfl hkind⟩
        cases heq
        exact hfound
      · simp only [checkRuntimeWriteConstraints, hkind, if_false, exec_pure, true_iff]
        refine ⟨hsucceeds, fun _ _ heq hdelete => ?_⟩
        cases heq
        exact absurd hdelete hkind
    | nonGroup => exact iff_of_true rfl ⟨hsucceeds, by rintro _ _ ⟨⟩⟩
    | normal groupId => exact iff_of_true rfl ⟨hsucceeds, by rintro _ _ ⟨⟩⟩
    | relayGeneratedSnapshot kind groupId =>
      exact iff_of_true rfl ⟨hsucceeds, by rintro _ _ ⟨⟩⟩

/-- The checks leave the store alone. -/
theorem exec_checkEvent_store :
    (exec relay.db.handle (state.checkEvent event eventClass auth) store).2 = store := by
  have hkeeps := @keeps_checkEvent state _ relay.db.handle (· = store) keeps_eventById event
    eventClass auth store rfl
  exact hkeeps.1 _ (Prog.run_mem_states _ _)

/-! ## One submission -/

/-- A service that finds an event in its store answers it as a duplicate when its checks accept it,
refuses it when they do not, and changes nothing. -/
theorem storeGroupPocketEvent_again
    (hfound : (relay.db.findById store.events event.id).isSome = true) :
    ∃ result, execState relay.db.handle
        (storeGroupPocketEvent relay.pocket event eventClass auth) state store =
      (result, state, store) ∧
      (result = .ok .duplicate ∧ state.AcceptsAgain relay.db store.events event eventClass auth ∨
        ∃ error, result = .error (.rejected error) ∧
          ¬ state.AcceptsAgain relay.db store.events event eventClass auth) := by
  have hcheck : execState relay.db.handle
      (liftProg (ExceptT.adapt GroupEventWriteError.rejected
        (state.checkEvent event eventClass auth)) :
        WriteM Unit) state store =
      ((exec relay.db.handle (state.checkEvent event eventClass auth) store).1.mapError
        GroupEventWriteError.rejected, state, store) := by
    rw [execState_liftProg, exec_adapt, exec_checkEvent_store]
  rw [storeGroupPocketEvent, execState_bind, execState_get]
  dsimp only
  rw [execState_bind, hcheck]
  cases hresult : (exec relay.db.handle (state.checkEvent event eventClass auth) store).1 with
  | error error =>
    refine ⟨.error (.rejected error), rfl, .inr ⟨error, rfl, fun haccepts => ?_⟩⟩
    rw [exec_checkEvent.mpr haccepts] at hresult
    cases hresult
  | ok done =>
    refine ⟨.ok .duplicate, ?_, .inl ⟨rfl, exec_checkEvent.mp hresult⟩⟩
    simp only [Except.mapError]
    rw [execState_bind, execState_liftProg, exec_eventById]
    dsimp only
    rw [if_pos hfound]
    rfl

/-- An event of a group that is found in the store is answered as a duplicate when a service is up
whose checks accept it, and refused otherwise. -/
theorem storeGroupEvent_again (hfound : (relay.db.findById store.events event.id).isSome = true) :
    ∃ write, execState relay.db.handle (storeGroupEvent relay.pocket event eventClass auth) groups
        store = (.ok write, groups, store) ∧
      (write = duplicateWrite event ↔ ∃ state, groups = some state ∧
        state.AcceptsAgain relay.db store.events event eventClass auth) := by
  cases groups with
  | none => exact ⟨_, rfl, iff_of_false (by rintro ⟨⟩) (by rintro ⟨_, ⟨⟩, _⟩)⟩
  | some state =>
    obtain ⟨result, hrun, hresult⟩ :=
      @storeGroupPocketEvent_again relay state store event eventClass auth hfound
    have hwith : execState relay.db.handle
        (withGroups (storeGroupPocketEvent relay.pocket event eventClass auth) state) (some state)
        store = (.ok result, some state, store) := by
      have hprog : (withGroups (storeGroupPocketEvent relay.pocket event eventClass auth)
          state).run.run (some state) =
          ((storeGroupPocketEvent relay.pocket event eventClass auth).run.run state >>= fun a =>
            Prog.pure (.ok a.1, some a.2)) := rfl
      unfold execState at hrun ⊢
      rw [hprog, Prog.run_bind]
      generalize Prog.run relay.db.handle
        ((storeGroupPocketEvent relay.pocket event eventClass auth).run.run state) store = ended
        at hrun ⊢
      cases hrun
      rfl
    rw [storeGroupEvent, execState_bind, execState_get]
    dsimp only
    rw [execState_bind, hwith]
    rcases hresult with ⟨rfl, haccepts⟩ | ⟨error, rfl, hrefuses⟩
    · exact ⟨_, rfl, iff_of_true rfl ⟨state, rfl, haccepts⟩⟩
    · refine ⟨_, rfl, iff_of_false (fun h => (nomatch h)) fun ⟨found, hsome, haccepts⟩ => ?_⟩
      cases hsome
      exact hrefuses haccepts

/-- Who has proved the key of the author is admitted as anyone is whose event was. -/
theorem admitPocketEvent_again
    (h : admitPocketEvent relay.pocket relay.limits event auth₀ = .ok ())
    (hauth : auth.contains event.pubkey = true) :
    admitPocketEvent relay.pocket relay.limits event auth = .ok () := by
  obtain ⟨_, hshape, h⟩ := Except.bind_eq_ok.mp h
  obtain ⟨_, hverify, _⟩ := Except.bind_eq_ok.mp h
  rw [admitPocketEvent, hshape, Except.ok_bind, hverify, Except.ok_bind, hauth]
  simp only [Bool.not_true, Bool.and_false, Bool.false_eq_true, if_false]
  rfl

/-- An event that was stored is no ephemeral event without a group. -/
theorem kept_of_stored {write : BaseRelayEventWrite} {groups' : Option GroupServiceState}
    {store' : PocketStore}
    (hrun : execState relay.db.handle (relay.submit event auth₀) groups store =
      (.ok write, groups', store')) (hstored : write.storedOffsets ≠ []) :
    admitPocketEvent relay.pocket relay.limits event auth₀ = .ok () ∧
      (classifyGroupEvent event .widest = .ok .nonGroup →
        (eventKind event).isEphemeral = false) := by
  have hend : WpState relay.db.handle (fun _ => True) (relay.submit event auth₀) groups store
      (fun write _ _ => write.storedOffsets ≠ [] →
        admitPocketEvent relay.pocket relay.limits event auth₀ = .ok () ∧
          (classifyGroupEvent event .widest = .ok .nonGroup →
            (eventKind event).isEphemeral = false)) fun _ _ _ => True := by
    unfold Relay.submit handlePocketEvent
    split
    · exact WpState.pure trivial fun h => absurd rfl h
    next hadmitted =>
    refine WpState.get_seq ?_
    split
    · exact WpState.pure trivial fun h => absurd rfl h
    · next hgate =>
      refine WpState.liftProg ?_
      unfold storePlainEvent
      split
      · exact Wp.pure trivial fun h => absurd rfl h
      · next hkind =>
        have hkept : (eventKind event).isEphemeral = false := Bool.eq_false_iff.mpr hkind
        exact ⟨fun _ _ => trivial, Ends.of_forall (fun _ _ _ => ⟨hadmitted, fun _ => hkept⟩)
          (fun _ _ => trivial) _ _⟩
    · next eventClass hgroup hgate =>
      have hother : classifyGroupEvent event .widest ≠ .ok .nonGroup := by
        intro hplain
        cases (classifyGroupEvent_widest (class_of_gate hgate).1).symm.trans hplain
        exact absurd rfl hgroup
      exact ⟨fun _ _ => trivial, Ends.of_forall (fun _ _ _ => ⟨hadmitted, fun h => absurd h hother⟩)
        (fun _ _ => trivial) _ _⟩
  exact hend.exec hrun hstored

/-- **One submission again.** An event that was stored once and is found in the store is answered
as a duplicate exactly when the checks accept it again. Nothing changes. -/
theorem submit_again (hadmitted : admitPocketEvent relay.pocket relay.limits event auth₀ = .ok ())
    (hkept : classifyGroupEvent event .widest = .ok .nonGroup →
      (eventKind event).isEphemeral = false)
    (hfound : (relay.db.findById store.events event.id).isSome = true)
    (hauth : auth.contains event.pubkey = true) :
    ∃ write, execState relay.db.handle (relay.submit event auth) groups store =
        (.ok write, groups, store) ∧
      (write = duplicateWrite event ↔ AcceptsAgain relay.db groups store.events event auth) := by
  rw [Relay.submit, handlePocketEvent, admitPocketEvent_again hadmitted hauth]
  dsimp only
  rw [execState_bind, execState_get]
  dsimp only
  unfold AcceptsAgain
  cases hgate : validateClientGroupEventStructure event (groupLimits groups) with
  | error error =>
    exact ⟨_, rfl, iff_of_false (by rintro ⟨⟩) (by rintro ⟨_, ⟨⟩, _⟩)⟩
  | ok eventClass =>
    by_cases hplain : eventClass = .nonGroup
    · subst hplain
      have hkind := hkept (classifyGroupEvent_widest (class_of_gate hgate).1)
      refine ⟨duplicateWrite event, ?_, iff_of_true rfl ⟨.nonGroup, rfl, fun h => absurd rfl h⟩⟩
      dsimp only
      rw [execState_liftProg, storePlainEvent, hkind, if_neg Bool.false_ne_true, exec_bind,
        exec_eventById]
      dsimp only
      rw [if_pos hfound]
      rfl
    · obtain ⟨write, hrun, hwrite⟩ :=
        @storeGroupEvent_again relay groups store event eventClass auth
        hfound
      refine ⟨write, ?_, hwrite.trans ⟨fun haccepts => ⟨eventClass, rfl, fun _ => haccepts⟩, ?_⟩⟩
      · cases eventClass with
        | nonGroup => exact absurd rfl hplain
        | normal groupId => exact hrun
        | moderation kind groupId => exact hrun
        | relayGeneratedSnapshot kind groupId => exact hrun
      · rintro ⟨found, heq, haccepts⟩
        cases heq
        exact haccepts hplain

/-! ## Runs -/

namespace Relay

/-- On the way to a world the event was submitted, accepted and stored. -/
def StoredBefore (relay : Relay) (w : World) (event : PocketEvent) : Prop :=
  ∃ w₀ auth write w₁, relay.Leads (fun _ _ _ => True) (.down .empty) w₀ ∧
    relay.Step w₀ (.submitted event auth (.ok write)) w₁ ∧ write.storedOffsets ≠ [] ∧
    relay.Leads (fun _ _ _ => True) w₁ w

end Relay

/-- **Every submission again.** Wherever a run leads after an event was stored, the event is
answered as a duplicate exactly when it is accepted again, as long as it is found in the store.
Nothing changes. -/
theorem resubmitted_iff (hbefore : relay.StoredBefore (.up groups store) event)
    (hfound : (relay.db.findById store.events event.id).isSome = true)
    (hauth : auth.contains event.pubkey = true) :
    ∃ write, execState relay.db.handle (relay.submit event auth) groups store =
        (.ok write, groups, store) ∧
      (write = duplicateWrite event ↔ AcceptsAgain relay.db groups store.events event auth) := by
  obtain ⟨w₀, auth₀, first, w₁, _, hstep, hstored, _⟩ := hbefore
  cases hstep with
  | submitted hfits hrun =>
    obtain ⟨hadmitted, hkept⟩ := kept_of_stored hrun hstored
    exact submit_again hadmitted hkept hfound hauth

end

/-! ## A join and a note -/

namespace Relay

/-- Whether a happening is no submission, or one that stored its event. -/
def storesAll (_ : World) : Happening → Bool
  | .submitted _ _ (.ok write) => !write.storedOffsets.isEmpty
  | .submitted _ _ (.error _) => false
  | .started _ _ | .startStopped _ _ | .submitStopped _ _ | .stopped => true

/-- A script whose submissions store their events has stored each of them. -/
theorem ScriptEnds.storedBefore {relay : Relay} {before after : List ScriptLine}
    {event : PocketEvent} {auth : GroupAuthContext} {P : GroupServiceState → PocketStore → Prop}
    (h : relay.ScriptEnds storesAll (before ++ .submit event auth :: after) P) :
    ∃ state store, relay.StoredBefore (.up (some state) store) event ∧ P state store := by
  unfold ScriptEnds at h
  split at h
  · next state store hrun =>
    refine ⟨state, store, ?_, h⟩
    unfold runScript at hrun
    rw [List.foldlM_append] at hrun
    obtain ⟨w₀, hbefore, hrest⟩ := Option.bind_eq_some_iff.mp hrun
    rw [List.foldlM_cons] at hrest
    obtain ⟨w₁, hsubmit, hafter⟩ := Option.bind_eq_some_iff.mp hrest
    obtain ⟨⟨happening, w⟩, hline, hallows⟩ := Option.bind_eq_some_iff.mp hsubmit
    dsimp only at hallows
    split at hallows
    · next hstores =>
      cases hallows
      have hstep := step_of_runLine hline
      cases w₀ with
      | down stopped => cases hline
      | up groups store₀ =>
        simp only [runLine] at hline
        split at hline
        · cases hline
          generalize (execState relay.db.handle (relay.submit event auth) groups store₀).1 = result
            at hstep hstores
          cases result with
          | error e => cases hstores
          | ok write =>
            refine ⟨_, auth, write, _, leads_of_lines storesAll (fun _ => trivial) hbefore, hstep,
              fun hempty => ?_, leads_of_lines storesAll (fun _ => trivial) hafter⟩
            simp only [storesAll, hempty, List.isEmpty_nil, Bool.not_true] at hstores
            cases hstores
        · cases hline
    · cases hallows
  · exact h.elim

end Relay

namespace Sample

def farmJoin : PocketEvent :=
  farmEvent member 9021 20 []

def memberNote : PocketEvent :=
  farmEvent member 11 30 []

/-- The group is made. -/
def farmMade : List ScriptLine :=
  [.start config 100, .submit (farmEvent owner 9007 10 []) (authAs owner)]

end Sample

section
open Sample

/-- A stored join submitted again is refused: the policy asks whether its author is a member before
the store is asked whether the event is there, and by then the author is one. -/
theorem resubmitted_join_refused : ∃ state store,
    relay.StoredBefore (.up (some state) store) farmJoin ∧
      (relay.db.findById store.events farmJoin.id).isSome = true ∧
      (authAs member).contains farmJoin.pubkey = true ∧
      (execState relay.db.handle (relay.submit farmJoin (authAs member)) (some state) store).1 =
        .ok (.unstored (okRejected farmJoin.id "duplicate: group member already exists")) := by
  have hscript : relay.ScriptEnds Relay.storesAll
      (farmMade ++ [.submit farmJoin (authAs member)]) fun state store =>
      (relay.db.findById store.events farmJoin.id).isSome = true ∧
        (authAs member).contains farmJoin.pubkey = true ∧
        (execState relay.db.handle (relay.submit farmJoin (authAs member)) (some state) store).1 =
          .ok (.unstored (okRejected farmJoin.id "duplicate: group member already exists")) := by
    decide +kernel
  exact hscript.storedBefore

/-- A stored note submitted again passes the checks that it passed before, and is answered as a
duplicate. Nothing is stored a second time. -/
theorem resubmitted_iff_note : ∃ state store write,
    execState relay.db.handle (relay.submit memberNote (authAs member)) (some state)
        store = (.ok write, some state, store) ∧
      write = duplicateWrite memberNote := by
  have hscript : relay.ScriptEnds Relay.storesAll
      ((farmMade ++ [.submit farmJoin (authAs member)]) ++ [.submit memberNote (authAs member)])
      fun state store =>
        (relay.db.findById store.events memberNote.id).isSome = true ∧
        (authAs member).contains memberNote.pubkey = true ∧
        validateClientGroupEventStructure memberNote state.limits =
          .ok (.normal farm) ∧
        (state.writePolicy.checkEvent memberNote (.normal farm)
          (authAs member)).Succeeds := by
    decide +kernel
  obtain ⟨state, store, hbefore, hfound, hauth, hgate, hpolicy⟩ := hscript.storedBefore
  obtain ⟨write, hrun, hwrite⟩ := resubmitted_iff hbefore hfound hauth
  refine ⟨state, store, write, hrun, hwrite.mpr ⟨_, hgate, fun _ => ⟨state, rfl, hpolicy, ?_⟩⟩⟩
  intro kind groupId heq
  cases heq

end

end Tangle
