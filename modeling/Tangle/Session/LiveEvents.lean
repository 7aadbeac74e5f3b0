import Tangle.Relay.IdentityProjections
import Tangle.Session.Outbound

/-!
# Events that are sent when they are stored

When a connection takes an offset from the event bus, the event there is sent to each of its
subscriptions that has a filter which the event matches, once, if the session may read it. With
hooks that leave events as they are this is all that is sent, and the connection sends it before it
takes anything else (`consumed_sent_once`).
-/

namespace Tangle

/-! ## Subscriptions that get an event -/

section
variable {σ : Type} {services : RelayServices} {relay : RelayDeliveries σ} {auth : GroupAuthContext}
  {event : PocketEvent} {projection : RelayProjectionContext}

/-- A subscription with these filters gets an event. -/
def GetsLive (services : RelayServices) (auth : GroupAuthContext) (event : PocketEvent)
    (filters : List PocketFilter) : Prop :=
  (∃ filter ∈ filters, services.reads.eventMatches filter event = .ok true) ∧
    BaseRelay.groupReadGateVisibleToAuth services.groups event auth = .ok true

theorem visibleToLive_iff : services.visibleToLive event auth = true ↔
    BaseRelay.groupReadGateVisibleToAuth services.groups event auth = .ok true := by
  unfold RelayServices.visibleToLive
  cases hgate : BaseRelay.groupReadGateVisibleToAuth services.groups event auth with
  | error error => exact iff_of_false (by simp) (by simp)
  | ok visible => simp

/-- The subscriptions that get an event are found, each once and in their order. -/
theorem fanoutFrom_succeeds (hmatches : services.reads.MatchesTotal)
    (entries : List (SubscriptionId × List PocketFilter)) :
    ∃ found, services.fanoutFrom event auth entries = .ok found ∧
      (found.map LiveSubscriptionMatch.subscriptionId).Sublist (entries.map Prod.fst) ∧
      ∀ id, id ∈ found.map LiveSubscriptionMatch.subscriptionId ↔
        ∃ filters, (id, filters) ∈ entries ∧ GetsLive services auth event filters := by
  induction entries with
  | nil => exact ⟨[], rfl, .slnil, by simp⟩
  | cons entry rest ih =>
    obtain ⟨subscriptionId, filters⟩ := entry
    obtain ⟨others, hothers, hsublist, hiff⟩ := ih
    obtain ⟨matched, hmatched, hsome⟩ :=
      filtersMatchedFrom_succeeds services hmatches event filters 0
    have hgets : GetsLive services auth event filters ↔
        matched.isEmpty = false ∧ services.visibleToLive event auth = true := by
      unfold GetsLive
      rw [visibleToLive_iff]
      refine and_congr_left fun _ => ?_
      constructor
      · intro hexists
        have hne := hsome hexists
        cases matched with
        | nil => exact absurd rfl hne
        | cons _ _ => rfl
      · intro hempty
        cases matched with
        | nil => cases hempty
        | cons first more =>
          obtain ⟨hmem, hdoes⟩ :=
            matchedBy_of_filtersMatchedFrom hmatched first (List.mem_cons_self ..)
          exact ⟨first.2, hmem, hdoes⟩
    have hcons : ∀ id, (∃ filters', (id, filters') ∈ (subscriptionId, filters) :: rest ∧
          GetsLive services auth event filters') ↔
        (id = subscriptionId ∧ GetsLive services auth event filters) ∨
          id ∈ others.map LiveSubscriptionMatch.subscriptionId := by
      intro id
      rw [hiff]
      constructor
      · rintro ⟨filters', hmem, hget⟩
        rcases List.mem_cons.mp hmem with heq | hmem
        · cases heq
          exact .inl ⟨rfl, hget⟩
        · exact .inr ⟨filters', hmem, hget⟩
      · rintro (⟨rfl, hget⟩ | ⟨filters', hmem, hget⟩)
        · exact ⟨filters, List.mem_cons_self .., hget⟩
        · exact ⟨filters', List.mem_cons_of_mem _ hmem, hget⟩
    have hrun : services.fanoutFrom event auth ((subscriptionId, filters) :: rest) =
        .ok (if matched.isEmpty then others
          else if services.visibleToLive event auth then ⟨subscriptionId, matched⟩ :: others
          else others) := by
      rw [RelayServices.fanoutFrom, hmatched, hothers]
      rfl
    refine ⟨_, hrun, ?_⟩
    by_cases hget : GetsLive services auth event filters
    · obtain ⟨hempty, hvisible⟩ := hgets.mp hget
      rw [hempty, hvisible]
      refine ⟨hsublist.cons_cons _, ?_⟩
      intro id
      rw [hcons]
      show id ∈ subscriptionId :: others.map LiveSubscriptionMatch.subscriptionId ↔ _
      rw [List.mem_cons]
      exact or_congr_left (and_iff_left hget).symm
    · have hsame : (if matched.isEmpty then others
          else if services.visibleToLive event auth then ⟨subscriptionId, matched⟩ :: others
          else others) = others := by
        split
        · rfl
        · next hempty =>
          split
          · next hvisible =>
            exact absurd (hgets.mpr ⟨Bool.eq_false_iff.mpr hempty, hvisible⟩) hget
          · rfl
      rw [hsame]
      refine ⟨hsublist.cons _, ?_⟩
      intro id
      rw [hcons]
      exact (or_iff_right fun hboth => hget hboth.2).symm

theorem yields_projectEventOutput (hemits : relay.hooks.EmitsAll)
    {request : RelayEventProjectionRequest}
    (htext : (RelayEventContext.fromPocketEvent relay.reads request.event).Succeeds) :
    (relay.projectEventOutput request).Yields (some request.event) := by
  obtain ⟨context, hcontext⟩ := htext
  have hemit := HookM.Yields.call fun s => hemits
    { subscriptionId := request.subscriptionId
      projection := request.projection
      source := request.source
      matchedFilters := request.matchedFilters.map Prod.fst
      event := context
      authenticatedPubkeys := request.auth.authenticatedPubkeys.toList } s
  exact (HookM.Yields.liftM hcontext).bind (hemit.bind (.pure _))

/-- An event is delivered to one subscription after another. -/
theorem yields_deliverMatches (hemits : relay.hooks.EmitsAll) {storeOffset : StoreOffset}
    (htext : (RelayEventContext.fromPocketEvent relay.reads event).Succeeds)
    {found : List LiveSubscriptionMatch} {delivery : RelayLiveProjectionDelivery}
    (hnodup : (found.map LiveSubscriptionMatch.subscriptionId).Nodup)
    (hnew : ∀ id ∈ found.map LiveSubscriptionMatch.subscriptionId,
      (id, event.id) ∉ delivery.delivered) :
    ∃ after, (found.foldlM (relay.deliverMatch event storeOffset auth projection) delivery).Yields
        after ∧
      after.messages = delivery.messages ++
        (found.map LiveSubscriptionMatch.subscriptionId).map fun id => .event id event := by
  induction found generalizing delivery with
  | nil => exact ⟨delivery, .pure _, (List.append_nil _).symm⟩
  | cons matched rest ih =>
    obtain ⟨hfirst, hrest⟩ := List.nodup_cons.mp hnodup
    have hone : (relay.deliverMatch event storeOffset auth projection delivery matched).Yields
        ⟨(matched.subscriptionId, event.id) :: delivery.delivered,
          delivery.messages ++ [.event matched.subscriptionId event]⟩ := by
      refine HookM.Yields.bind (yields_projectEventOutput hemits htext) ?_
      dsimp only
      rw [if_neg (hnew _ (List.mem_cons_self ..))]
      exact .pure _
    obtain ⟨after, hyields, hmessages⟩ := @ih ⟨(matched.subscriptionId, event.id) ::
        delivery.delivered, delivery.messages ++ [.event matched.subscriptionId event]⟩ hrest (by
      intro id hid hmem
      rcases List.mem_cons.mp hmem with heq | hmem
      · cases heq
        exact hfirst hid
      · exact hnew id (List.mem_cons_of_mem _ hid) hmem)
    refine ⟨after, ?_, ?_⟩
    · rw [List.foldlM_cons]
      exact hone.bind hyields
    · rw [hmessages, List.append_assoc]
      rfl

/-- The hooks name no further events for one that is stored. -/
def RelayRuntimeHooks.NamesNone {σ : Type} (hooks : RelayRuntimeHooks σ) : Prop :=
  ∀ context s, ((hooks.liveProjectionCandidates context).run s).1 = []

/-- What is sent for an offset. -/
theorem yields_fanoutEventOffset (hemits : relay.hooks.EmitsAll) (hnone : relay.hooks.NamesNone)
    (hmatches : relay.reads.MatchesTotal) {offset : StoreOffset}
    {subscriptions : LiveSubscriptionSet}
    (hevent : relay.reads.eventByOffset relay.events offset = .ok event)
    (htext : (RelayEventContext.fromPocketEvent relay.reads event).Succeeds) :
    ∃ ids : List SubscriptionId, ids.Nodup ∧
      (∀ id, id ∈ ids ↔ ∃ filters, subscriptions.subscriptions[id]? = some filters ∧
        GetsLive relay auth event filters) ∧
      (relay.fanoutEventOffsetWithProjectionContext offset subscriptions auth projection).Yields
        (ids.map fun id => .event id event) := by
  obtain ⟨found, hfound, hsublist, hiff⟩ := @fanoutFrom_succeeds relay.toRelayServices auth event
    hmatches subscriptions.subscriptions.toList
  have hnodup := hsublist.nodup BTreeMap.nodup_keys_toList
  obtain ⟨after, hyields, hmessages⟩ := @yields_deliverMatches _ relay auth event projection hemits
    offset htext found ⟨[], []⟩ hnodup fun _ _ => List.not_mem_nil
  obtain ⟨context, hcontext⟩ := htext
  have hcandidates := HookM.Yields.call fun s => hnone
    ⟨projection, offset, context, auth.authenticatedPubkeys.toList⟩ s
  refine ⟨found.map LiveSubscriptionMatch.subscriptionId, hnodup, ?_, ?_⟩
  · intro id
    rw [hiff]
    refine exists_congr fun filters => and_congr_left fun _ => BTreeMap.mem_toList
  · have hread : (relay.reads.eventByOffset relay.events offset).mapError BaseRelayError.error =
        .ok event := Except.mapError_eq_ok.mpr hevent
    refine HookM.Yields.bind (.liftM hread) ?_
    refine HookM.Yields.bind (HookM.Yields.bind (.liftM hfound) hyields) ?_
    refine HookM.Yields.bind (.liftM hcontext) ?_
    refine HookM.Yields.bind hcandidates ?_
    have hnothing : (([] : List StoreOffset).foldlM
        (relay.deliverCandidate subscriptions auth projection) after).Yields after := .pure _
    rw [List.nil_append] at hmessages
    rw [← hmessages]
    exact hnothing.bind (.pure _)

end

/-! ## Connections that answer -/

/-- A connection puts no replies into its queue. -/
def Unanswered (connection : Nat) (seen : List Observation) : Prop :=
  ∀ replies, .answered connection replies ∉ seen

/-- A connection puts these replies into its queue, and no others before. -/
def AnswersNext (connection : Nat) (replies : List SessionReply) (seen : List Observation) : Prop :=
  ∃ between rest, seen = between ++ .answered connection replies :: rest ∧
    Unanswered connection between

section
variable {connection : Nat} {replies : List SessionReply} {trace seen : List Observation}

theorem Unanswered.append (h : Unanswered connection trace) (hseen : Unanswered connection seen) :
    Unanswered connection (trace ++ seen) := by
  intro replies hmem
  rcases List.mem_append.mp hmem with hmem | hmem
  · exact h replies hmem
  · exact hseen replies hmem

/-- What is seen later does not matter. -/
theorem AnswersNext.append (h : AnswersNext connection replies trace) :
    AnswersNext connection replies (trace ++ seen) := by
  obtain ⟨between, rest, rfl, hquiet⟩ := h
  refine ⟨between, rest ++ seen, ?_, hquiet⟩
  rw [List.append_assoc, List.cons_append]

/-- Where a connection puts nothing into its queue, its next replies come later. -/
theorem AnswersNext.prepend (h : AnswersNext connection replies seen)
    (hquiet : Unanswered connection trace) : AnswersNext connection replies (trace ++ seen) := by
  obtain ⟨between, rest, rfl, hnone⟩ := h
  exact ⟨trace ++ between, rest, (List.append_assoc ..).symm, hquiet.append hnone⟩

end

namespace RelayProcess

variable {σ : Type} {runtime : RelaySessionRuntime σ} {first process process' : RelayProcess σ}
  {live : LiveSession} {allowed : Option GroupServiceState → PocketStore → PocketEvent →
    List StoreExchange → Prop} {start : PocketStore} {trace seen : List Observation}
  {connection : Nat} {replies : List SessionReply} {offset : StoreOffset}

/-- A connection that has replies to put into its queue puts them there before anything else. -/
theorem Step.waits (h : Step runtime allowed process seen process')
    (hlive : process.sessions[connection]? = some live)
    (hanswering : live.answering = some ([], replies))
    (hfresh : process.sessions[process.nextConnectionId]? = none) :
    (Unanswered connection seen ∧ ∃ live', process'.sessions[connection]? = some live' ∧
      live'.answering = some ([], replies)) ∨ AnswersNext connection replies seen := by
  have hkeep : ∀ {other : Nat} {after : RelayProcess σ} {live' : LiveSession}, connection ≠ other →
      after.sessions = process.sessions →
      ∃ stays, (after.keepSession other live').sessions[connection]? = some stays ∧
        stays.answering = some ([], replies) := by
    intro other after live' hne hsessions
    refine ⟨live, ?_, hanswering⟩
    unfold keepSession
    rw [BTreeMap.getElem?_insert_ne hne.symm, hsessions, hlive]
  have hend : ∀ {other : Nat} {live' : LiveSession}, connection ≠ other →
      ∃ stays, (process.endSession other live').sessions[connection]? = some stays ∧
        stays.answering = some ([], replies) := by
    intro other live' hne
    have herase : (process.endSession other live').sessions[connection]? =
        if other = connection then none else process.sessions[connection]? :=
      BTreeMap.getElem?_erase
    rw [if_neg hne.symm] at herase
    exact ⟨live, herase.trans hlive, hanswering⟩
  have hbusy : ∀ {other : Nat} {one : LiveSession}, process.sessions[other]? = some one →
      one.answering = none → connection ≠ other := by
    rintro other one hone hidle rfl
    cases hlive.symm.trans hone
    rw [hanswering] at hidle
    cases hidle
  cases h with
  | opens hopens =>
    obtain ⟨opened, _, _, _, rfl⟩ := openSession_eq_some hopens
    have hne : process.nextConnectionId ≠ connection := by
      rintro rfl
      rw [hfresh] at hlive
      cases hlive
    refine .inl ⟨?_, live, ?_, hanswering⟩
    · intro others hmem
      simp only [List.mem_cons, reduceCtorEq, Observation.answered.injEq, false_or,
        List.not_mem_nil, or_false] at hmem
      exact hne hmem.1.symm
    · rw [BTreeMap.getElem?_insert_ne hne]
      exact hlive
  | receives hone hidle hanswer _ =>
    refine .inl ⟨fun others hmem => ?_, hkeep (hbusy hone hidle)
      (answersFrom_handleIncomingMessage hanswer).streams.sessions⟩
    cases List.mem_singleton.mp hmem
  | @publishes other one _ _ _ hone hpublishing =>
    refine .inl ⟨fun others hmem => ?_, hkeep ?_ rfl⟩
    · cases List.mem_singleton.mp hmem
    · rintro rfl
      cases hlive.symm.trans hone
      rw [hanswering] at hpublishing
      cases hpublishing
  | consumes hone hidle _ hreplies =>
    refine .inl ⟨fun others hmem => ?_,
      hkeep (hbusy hone hidle) (handleEventOffset_eq hreplies).1.sessions⟩
    cases List.mem_singleton.mp hmem
  | lags written hone hidle _ =>
    refine .inl ⟨fun others hmem => ?_, hend (hbusy hone hidle)⟩
    cases written <;> simp at hmem
  | @replies other one others outbound hone hreplying _ =>
    by_cases heq : other = connection
    · subst heq
      cases hlive.symm.trans hone
      rw [hanswering] at hreplying
      cases hreplying
      exact .inr ⟨[], [], rfl, fun _ => List.not_mem_nil⟩
    · refine .inl ⟨fun replies hmem => ?_, hkeep (Ne.symm heq) rfl⟩
      cases List.mem_singleton.mp hmem
      exact heq rfl
  | @repliesClose other one others message outbound written hone hreplying henqueue =>
    by_cases heq : other = connection
    · subst heq
      cases hlive.symm.trans hone
      rw [hanswering] at hreplying
      cases hreplying
      refine .inr (AnswersNext.append (.append ?_))
      exact ⟨[], [], rfl, fun _ => List.not_mem_nil⟩
    · refine .inl ⟨fun replies hmem => ?_, hend (Ne.symm heq)⟩
      cases written <;> simp [Ne.symm heq] at hmem
  | writes hone hidle _ =>
    refine .inl ⟨fun others hmem => ?_, hkeep (hbusy hone hidle) rfl⟩
    cases List.mem_singleton.mp hmem
  | keepsAlive _ _ _ =>
    refine .inl ⟨fun others hmem => ?_, live, hlive, hanswering⟩
    cases List.mem_singleton.mp hmem
  | @ends _ _ last hone hidle _ =>
    refine .inl ⟨fun others hmem => ?_, hend (hbusy hone hidle)⟩
    cases last <;> simp at hmem
  | shares _ _ _ => exact .inl ⟨fun _ => List.not_mem_nil, live, hlive, hanswering⟩

/-- However a process goes on, the replies that a connection has to put into its queue are the next
that it puts there, or it still has to. -/
theorem Continues.waits (h : Continues runtime allowed first seen process)
    (hfirst : Runs runtime allowed start trace first)
    (hlive : first.sessions[connection]? = some live)
    (hanswering : live.answering = some ([], replies)) :
    AnswersNext connection replies seen ∨ Unanswered connection seen ∧
      ∃ live', process.sessions[connection]? = some live' ∧ live'.answering = some
        ([], replies) := by
  induction h with
  | here => exact .inr ⟨fun _ => List.not_mem_nil, live, hlive, hanswering⟩
  | step hmore hstep ih =>
    rcases ih with hnext | ⟨hquiet, now, hnow, hstill⟩
    · exact .inl hnext.append
    · rcases hstep.waits hnow hstill (hfirst.continues hmore).tracked.fresh with hwaits | hnext
      · exact .inr ⟨hquiet.append hwaits.1, hwaits.2⟩
      · exact .inl (hnext.prepend hquiet)

/-- A connection that takes an offset is idle before, the bus holds the offset for it, and
afterwards it has to answer with what is sent for the offset. -/
structure Takes (runtime : RelaySessionRuntime σ) (process : RelayProcess σ) (connection : Nat)
    (offset : StoreOffset) (live : LiveSession) (process' : RelayProcess σ) : Prop where
  found : process.sessions[connection]? = some live
  received : (process.eventBus.recv live.nextEvent).1 = .value offset
  answers : ∃ live', process'.sessions[connection]? = some live' ∧
    live'.answering = some ([], (process.handleEventOffset runtime live offset).1)

/-- An offset is taken in a step of its own. -/
theorem Step.takes (h : Step runtime allowed process seen process')
    (hmem : .consumed connection offset ∈ seen) :
    seen = [.consumed connection offset] ∧
      ∃ live, process.Takes runtime connection offset live process' := by
  cases h with
  | consumes hlive _ hrecv hreplies =>
    cases List.mem_singleton.mp hmem
    refine ⟨rfl, _, hlive, by rw [hrecv], _, BTreeMap.getElem?_insert_self, ?_⟩
    rw [hreplies]
  | opens _ => simp at hmem
  | receives _ _ _ _ => simp at hmem
  | publishes _ _ => simp at hmem
  | lags written _ _ _ => cases written <;> simp at hmem
  | replies _ _ _ => simp at hmem
  | repliesClose written _ _ _ => cases written <;> simp at hmem
  | writes _ _ _ => simp at hmem
  | keepsAlive _ _ _ => simp at hmem
  | @ends _ _ last _ _ _ => cases last <;> simp at hmem
  | shares _ _ _ => cases hmem

/-- An offset that was taken on the way was taken in some step of the way. -/
theorem Continues.cut_consumed {earlier later : List Observation}
    (h : Continues runtime allowed first trace process)
    (htrace : trace = earlier ++ .consumed connection offset :: later) :
    ∃ before after, Continues runtime allowed first earlier before ∧
      Step runtime allowed before [.consumed connection offset] after ∧
      Continues runtime allowed after later process := by
  obtain ⟨sofar, pre, post, rest, before, after, rfl, rfl, hsofar, hcut, hrest⟩ := h.cut htrace
  obtain ⟨hseen, _⟩ := hcut.takes (List.mem_append_right _ (List.mem_cons_self ..))
  cases pre with
  | nil =>
    obtain ⟨_, rfl⟩ := List.cons.inj hseen
    rw [List.append_nil]
    exact ⟨before, after, hsofar, hcut, hrest⟩
  | cons observation pre =>
    obtain ⟨_, hnil⟩ := List.cons.inj hseen
    cases pre <;> cases hnil

/-- What is sent for an offset: the event there, once to each subscription that gets it. -/
theorem handleEventOffset_sends (hemits : runtime.deliveryHooks.EmitsAll)
    (hnone : runtime.deliveryHooks.NamesNone) (hmatches : runtime.reads.MatchesTotal)
    {offset : StoreOffset} {event : PocketEvent}
    (hevent : runtime.reads.eventByOffset process.store.events offset = .ok event)
    (htext : (RelayEventContext.fromPocketEvent runtime.reads event).Succeeds) :
    ∃ ids : List SubscriptionId, ids.Nodup ∧
      (∀ id, id ∈ ids ↔ ∃ filters, live.session.subscriptions.subscriptions[id]? = some filters ∧
        GetsLive (process.handle runtime).toRelayServices live.groupAuth event filters) ∧
      (process.handleEventOffset runtime live offset).1 = ids.map fun id => .event id event := by
  obtain ⟨ids, hnodup, hiff, hyields⟩ := @yields_fanoutEventOffset _
    (process.handle runtime).toRelayDeliveries live.groupAuth event live.session.projection hemits
    hnone hmatches offset live.session.subscriptions hevent htext
  refine ⟨ids, hnodup, hiff, ?_⟩
  obtain ⟨hooks, hrun⟩ := hyields process.hooks
  unfold handleEventOffset
  rw [hrun]
  dsimp only
  rw [List.map_map]
  rfl

end RelayProcess

end Tangle
