import Tangle.Relay.Deliveries
import Tangle.Session.Sessions

/-!
# Replies and subscriptions

A reply ends with the message that tells the client what has become of its subscription. A request
for a new id leaves the session as its reply says. A request for an id that is live already does so
only when it is refused with an error or is answered with an open end: when it is closed, or when
its filters are complete, the session keeps the filters that the id had before
(`followsReplies_iff`).
-/

namespace Tangle

variable {σ : Type} {relay : RelayDeliveries σ} {services : RelayServices} {auth : GroupAuthContext}
  {filters : List PocketFilter} {subscriptionId : SubscriptionId}
  {projection : RelayProjectionContext}

/-! ## How a reply ends -/

/-- The report's messages end with the message that its refusal asks for. -/
def BaseRelayQueryReport.EndsFor (report : BaseRelayQueryReport) (subscriptionId : SubscriptionId)
    (auth : GroupAuthContext) : Prop :=
  report.messages.getLast? =
    some (RelayServices.lastMessage subscriptionId auth report.groupReadDenied)

/-- The messages of a query end with EOSE, or with CLOSED when an event was held back. -/
theorem endsFor_of_queryReq {report : BaseRelayQueryReport}
    (h : services.queryReqWithGroupAuth subscriptionId filters false auth = .ok report) :
    report.EndsFor subscriptionId auth := by
  unfold RelayServices.queryReqWithGroupAuth at h
  obtain ⟨_, _, h⟩ := Except.bind_eq_ok.mp h
  obtain ⟨found, _, h⟩ := Except.bind_eq_ok.mp h
  cases h
  exact List.getLast?_concat

/-- The hooks leave the last message of a reply as it is, unless it carries an event. -/
theorem returns_projectRuntimeMessages_getLast? {eventIds : BTreeSet EventId}
    {messages : List RuntimeRelayMessage} {last : RelayMessage}
    (hlast : messages.getLast? = some (.relay last)) :
    Returns (relay.projectRuntimeMessages filters projection auth eventIds messages)
      fun projected =>
      projected.getLast? = some (.relay last) := by
  induction messages generalizing eventIds with
  | nil => cases hlast
  | cons message rest ih =>
    cases rest with
    | nil =>
      cases hlast
      exact .bind (.pure rfl : Returns _ fun others => others = []) fun others hothers => .pure (by
        rw [hothers]
        rfl)
    | cons next rest =>
      rw [List.getLast?_cons_cons] at hlast
      have hadd : ∀ {others : List RuntimeRelayMessage} {added : RuntimeRelayMessage},
          others.getLast? = some (.relay last) →
            (added :: others).getLast? = some (.relay last) := by
        intro others added hothers
        rw [List.getLast?_cons, hothers]
        rfl
      cases message with
      | relay message => exact .bind (ih hlast) fun others hothers => .pure (hadd hothers)
      | event id event =>
        refine .bind (Q := fun _ => True) (fun _ _ _ _ => trivial) fun projected _ => ?_
        cases projected with
        | none => exact ih hlast
        | some projected =>
          dsimp only
          split
          · exact ih hlast
          · exact .bind (ih hlast) fun others hothers => .pure (hadd hothers)

/-- A reply ends with an end of its events, or with a refusal when the read gate has hidden
some. -/
theorem returns_queryReq_endsFor :
    Returns (relay.queryReqWithProjectionContext subscriptionId filters false auth projection)
      fun report => report.EndsFor subscriptionId auth := by
  refine .bind (Q := fun _ => True) (fun _ _ _ _ => trivial) fun plan _ => ?_
  cases plan with
  | beforeProjection =>
    refine .bind (.liftM fun report hreport => endsFor_of_queryReq hreport) fun report hends => ?_
    obtain ⟨last, hlast⟩ := exists_lastMessage subscriptionId auth report.groupReadDenied
    have hreport : report.messages.getLast? = some (.relay last) :=
      hends.trans (congrArg some hlast)
    exact .bind (returns_projectRuntimeMessages_getLast? hreport) fun messages hmessages =>
      .pure (hmessages.trans (congrArg some hlast.symm))
  | afterProjection candidateLimit =>
    refine .bind (Q := fun _ => True) (fun _ _ _ _ => trivial) fun _ _ => ?_
    exact .bind (Q := fun _ => True) (fun _ _ _ _ => trivial) fun report _ =>
      .pure List.getLast?_concat

/-! ## What a reply says of a subscription -/

/-- The session holds what the reply to a request says: nothing for an id whose reply ends with
`CLOSED`, the filters of the request for one whose reply ends with `EOSE`, unless they are complete,
and what it held before when the request failed. Other ids are as they were. -/
structure FollowsReply (completes : PocketFilter → Bool) (req : ReqMessage) (replies : Replies)
    (before after : LiveSubscriptionSet) : Prop where
  others : ∀ id ≠ req.subscriptionId, after.subscriptions[id]? = before.subscriptions[id]?
  failed : ∀ error, replies = .error error → after = before
  closed : ∀ messages text, replies = .ok messages →
    messages.getLast? = some (.relay (.closed req.subscriptionId text)) →
      after.subscriptions[req.subscriptionId]? = none
  ended : ∀ messages, replies = .ok messages →
    messages.getLast? = some (.relay (.eose req.subscriptionId)) →
      after.subscriptions[req.subscriptionId]? =
        if pocketFiltersAreComplete completes req.filters then none else some req.filters

section
variable {completes : PocketFilter → Bool} {req : ReqMessage} {set after : LiveSubscriptionSet}
  {messages : List RuntimeRelayMessage} {text : String} {error : BaseRelayError}

/-- An id is not subscribed exactly when the set has no filters under it. -/
theorem LiveSubscriptionSet.contains_eq_false {id : SubscriptionId} :
    set.contains id = false ↔ set.subscriptions[id]? = none := by
  rw [contains, Std.ExtTreeMap.contains_eq_isSome_getElem?, Option.isSome_eq_false_iff,
    Option.isNone_iff_eq_none]

/-- An error sends nothing and leaves the subscriptions as they were. -/
theorem followsReply_error : FollowsReply completes req (.error error) set set where
  others _ _ := rfl
  failed _ _ := rfl
  closed _ _ h := nomatch h
  ended _ h := nomatch h

/-- A request that is closed and leaves the session alone must be for an id that is not live. -/
theorem followsReply_closed_iff
    (hlast : messages.getLast? = some (.relay (.closed req.subscriptionId text))) :
    FollowsReply completes req (.ok messages) set set ↔
      set.contains req.subscriptionId = false := by
  rw [LiveSubscriptionSet.contains_eq_false]
  refine ⟨fun h => h.closed messages text rfl hlast, fun h => ⟨fun _ _ => rfl, fun _ _ => rfl,
    fun _ _ _ _ => h, fun _ hmessages hended => ?_⟩⟩
  cases hmessages
  cases hlast.symm.trans hended

/-- A CLOSED alone follows the rules exactly when the id was not subscribed. -/
theorem followsReply_closed_single_iff :
    FollowsReply completes req (.ok [.relay (.closed req.subscriptionId text)]) set set ↔
      set.contains req.subscriptionId = false :=
  followsReply_closed_iff List.getLast?_singleton

/-- So must one whose filters are complete. -/
theorem followsReply_ended_iff
    (hlast : messages.getLast? = some (.relay (.eose req.subscriptionId)))
    (hcomplete : pocketFiltersAreComplete completes req.filters = true) :
    FollowsReply completes req (.ok messages) set set ↔
      set.contains req.subscriptionId = false := by
  rw [LiveSubscriptionSet.contains_eq_false]
  refine ⟨fun h => ?_, fun h => ⟨fun _ _ => rfl, fun _ _ => rfl, fun _ _ _ _ => h, fun _ _ _ => ?_⟩⟩
  · have hended := h.ended messages rfl hlast
    rwa [if_pos hcomplete] at hended
  · rw [if_pos hcomplete]
    exact h

/-- A reply that ends with EOSE follows the rules when the subscription stays open under the filters
asked for. -/
theorem followsReply_subscribed
    (hlast : messages.getLast? = some (.relay (.eose req.subscriptionId)))
    (hcomplete : pocketFiltersAreComplete completes req.filters = false)
    (hafter : after.subscriptions = set.subscriptions.insert req.subscriptionId req.filters) :
    FollowsReply completes req (.ok messages) set after where
  others id hid := by
    rw [hafter, BTreeMap.getElem?_insert_ne hid.symm]
  failed _ h := nomatch h
  closed _ _ hmessages hclosed := by
    cases hmessages
    cases hlast.symm.trans hclosed
  ended _ _ _ := by
    rw [hafter, BTreeMap.getElem?_insert_self, hcomplete]
    rfl

end

/-! ## What a request does to the session -/

section
variable {world after : SessionWorld σ} {runtime : RelayRuntimeHandle σ} {req : ReqMessage}
  {now : UnixTimestamp} {error : BaseRelayError} {report : BaseRelayQueryReport}

/-- An id that is live can be subscribed again. -/
theorem ensureCanSubscribe_of_contains {set : LiveSubscriptionSet} (hfilters : filters ≠ [])
    (h : set.contains subscriptionId = true) :
    set.ensureCanSubscribe subscriptionId filters = .ok () := by
  unfold LiveSubscriptionSet.ensureCanSubscribe
  rw [if_neg (mt List.isEmpty_iff.mp hfilters), h]
  rfl

/-- Subscribing puts the filters under the id and touches no other. -/
theorem subscriptions_of_subscribe {set set' : LiveSubscriptionSet}
    (h : set.subscribe subscriptionId filters = .ok set') :
    set' = { set with subscriptions := set.subscriptions.insert subscriptionId filters } := by
  obtain ⟨_, _, h⟩ := Except.bind_eq_ok.mp h
  cases h
  rfl

/-- A subscription opened is one that the set holds afterwards. -/
theorem subscriptions_of_openSubscription
    (h : world.openSubscription subscriptionId filters = (.ok (), after)) :
    after.session.subscriptions.subscriptions =
      world.session.subscriptions.subscriptions.insert subscriptionId filters := by
  unfold SessionWorld.openSubscription at h
  split at h
  · cases h
  · split at h
    · cases h
    · next subscriptions hsubscribe =>
      cases h
      have hset := subscriptions_of_subscribe hsubscribe
      split
      · exact congrArg LiveSubscriptionSet.subscriptions hset
      · exact congrArg LiveSubscriptionSet.subscriptions hset

/-- A subscription that could not be opened leaves the session as it was. -/
theorem session_of_openSubscription_error
    (h : world.openSubscription subscriptionId filters = (.error error, after)) :
    after.session = world.session := by
  unfold SessionWorld.openSubscription at h
  split at h
  · cases h
    rfl
  · split at h
    · cases h
      rfl
    · cases h

/-- A query leaves the session as it was, whatever it finds. -/
theorem session_of_queryReq {found : Except BaseRelayError BaseRelayQueryReport}
    (h : world.queryReq runtime req = (found, after)) : after.session = world.session := by
  unfold SessionWorld.queryReq at h
  split at h <;> cases h <;> rfl

/-- The CLOSED for a hidden event is one for that subscription. -/
theorem exists_redactedReqClosed (subscriptionId : SubscriptionId) (auth : GroupAuthContext) :
    ∃ text, BaseRelay.redactedReqClosed subscriptionId auth = .closed subscriptionId text := by
  unfold BaseRelay.redactedReqClosed
  split
  · exact ⟨_, rfl⟩
  · exact ⟨_, rfl⟩

/-- A reply that the read gate has refused ends with `CLOSED`. -/
theorem BaseRelayQueryReport.EndsFor.closed (h : report.EndsFor subscriptionId auth)
    (hdenied : report.groupReadDenied = true) :
    ∃ text, report.messages.getLast? = some (.relay (.closed subscriptionId text)) := by
  obtain ⟨text, hclosed⟩ := exists_redactedReqClosed subscriptionId auth
  refine ⟨text, ?_⟩
  rw [h, RelayServices.lastMessage, if_pos hdenied, hclosed]

/-- The messages of a query that held nothing back end with EOSE. -/
theorem BaseRelayQueryReport.EndsFor.ended (h : report.EndsFor subscriptionId auth)
    (hdenied : report.groupReadDenied = false) :
    report.messages.getLast? = some (.relay (.eose subscriptionId)) := by
  rw [h, RelayServices.lastMessage, hdenied]
  rfl

/-- The same of a query of the world, when it is not a search. -/
theorem endsFor_of_query (hsearch : req.searchPresent = false)
    (h : world.queryReq runtime req = (.ok report, after)) :
    report.EndsFor req.subscriptionId world.session.auth := by
  unfold SessionWorld.queryReq at h
  split at h
  · cases h
  · next hrun =>
    cases h
    rw [hsearch] at hrun
    exact returns_queryReq_endsFor _ _ _ hrun

/-- The request is answered with an open end. -/
def SessionWorld.AnswersOpen (world : SessionWorld σ) (runtime : RelayRuntimeHandle σ)
    (req : ReqMessage) : Prop :=
  ∀ report after, world.queryReq runtime req = (.ok report, after) →
    report.groupReadDenied = false ∧
      pocketFiltersAreComplete runtime.completes req.filters = false

/-- **When the answer to a REQ follows the rules**: what is sent and whether the subscription stays
open agree exactly when no error came after the subscription of that id had been opened before. -/
theorem followsReply_answerReq_iff {replies : Replies} (hfilters : req.filters ≠ [])
    (hsearch : req.searchPresent = false) (h : world.answerReq runtime req = (replies, after)) :
    FollowsReply runtime.completes req replies world.session.subscriptions
        after.session.subscriptions ↔
      (world.session.subscriptions.contains req.subscriptionId = true →
        world.AnswersOpen runtime req) := by
  unfold SessionWorld.answerReq at h
  dsimp only at h
  split at h
  · next error hcannot =>
    cases h
    refine ⟨fun _ hlive => ?_, fun _ => followsReply_error⟩
    rw [ensureCanSubscribe_of_contains hfilters hlive, ite_self] at hcannot
    cases hcannot
  · rcases hquery : world.queryReq runtime req with ⟨found, searched⟩
    rw [hquery] at h
    have hsession := session_of_queryReq hquery
    cases found with
    | error error =>
      cases h
      rw [hsession]
      refine ⟨fun _ _ report after hreport => ?_, fun _ => followsReply_error⟩
      rw [hquery] at hreport
      cases hreport
    | ok report =>
      have hends := endsFor_of_query hsearch hquery
      have hopen : world.AnswersOpen runtime req ↔ report.groupReadDenied = false ∧
          pocketFiltersAreComplete runtime.completes req.filters = false := by
        refine ⟨fun h => h report searched hquery, fun h report after hreport => ?_⟩
        rw [hquery] at hreport
        cases hreport
        exact h
      rw [hopen]
      dsimp only at h
      cases hdenied : report.groupReadDenied with
      | true =>
        rw [hdenied, Bool.not_true, Bool.and_false] at h
        cases h
        obtain ⟨text, hclosed⟩ := hends.closed hdenied
        rw [hsession, followsReply_closed_iff hclosed]
        simp
      | false =>
        have hended := hends.ended hdenied
        rw [hdenied, Bool.not_false, Bool.and_true] at h
        cases hcomplete : pocketFiltersAreComplete runtime.completes req.filters with
        | true =>
          rw [hcomplete] at h
          cases h
          rw [hsession, followsReply_ended_iff hended hcomplete]
          simp
        | false =>
          rw [hcomplete, Bool.not_false, if_pos rfl] at h
          refine ⟨fun _ _ => ⟨rfl, rfl⟩, fun _ => ?_⟩
          split at h
          · next error refused hopens =>
            cases h
            rw [session_of_openSubscription_error hopens, hsession]
            exact followsReply_error
          · next opened hopens =>
            cases h
            refine followsReply_subscribed hended hcomplete ?_
            rw [subscriptions_of_openSubscription hopens, hsession]

/-! ## Runs of messages -/

/-- What decides whether the session is left as the reply to a request says: the id is not live, the
request is not valid, or it is neither closed before it is searched nor answered with a refusal or
for complete filters. -/
def SessionWorld.Settles (world : SessionWorld σ) (runtime : RelayRuntimeHandle σ)
    (req : ReqMessage) (now : UnixTimestamp) : Prop :=
  world.session.subscriptions.contains req.subscriptionId = true →
    world.session.validateReq req = .ok () →
      req.searchPresent = false ∧ (world.rateLimitReq runtime req now).1 = none ∧
        (world.rateLimitReq runtime req now).2.AnswersOpen runtime req

/-- A request that passes validation has filters. -/
theorem filters_of_validateReq (h : world.session.validateReq req = .ok ()) : req.filters ≠ [] := by
  obtain ⟨_, _, h⟩ := Except.bind_eq_ok.mp h
  intro hnil
  rw [hnil] at h
  cases h

/-- **The reply to a REQ follows the rules exactly when the request is settled**: each of the exits
of the handler in turn. -/
theorem followsReply_handleReq_iff {replies : Replies}
    (h : world.handleReq runtime req now = (replies, after)) :
    FollowsReply runtime.completes req replies world.session.subscriptions
      after.session.subscriptions ↔ world.Settles runtime req now := by
  unfold SessionWorld.handleReq at h
  unfold SessionWorld.Settles
  split at h
  · next error hinvalid =>
    cases h
    refine ⟨fun _ _ hvalid => ?_, fun _ => followsReply_error⟩
    rw [hinvalid] at hvalid
    cases hvalid
  · next hvalid =>
    have hfilters := filters_of_validateReq hvalid
    rw [hvalid]
    unfold BaseRelay.unsupportedSearchPresentClosed at h
    cases hsearch : req.searchPresent with
    | true =>
      rw [hsearch] at h
      cases h
      rw [followsReply_closed_single_iff]
      simp
    | false =>
      rw [hsearch, if_neg Bool.false_ne_true] at h
      rcases hlimited : world.rateLimitReq runtime req now with ⟨refused, limited⟩
      have hsession : limited.session = world.session :=
        (congrArg (fun result => result.2.session) hlimited).symm
      rw [hlimited] at h
      cases refused with
      | some message =>
        cases h
        obtain ⟨text, rfl⟩ := closed_of_rateLimitAll (congrArg Prod.fst hlimited)
        rw [hsession, followsReply_closed_single_iff]
        simp
      | none =>
        have hanswer := followsReply_answerReq_iff hfilters hsearch h
        rw [hsession] at hanswer
        rw [hanswer]
        simp

end

/-- A message that reaches a session, and what it finds there: other sessions may have changed what
they share since the message before. -/
structure SessionStep (σ : Type) where
  message : SubscriptionMessage
  runtime : RelayRuntimeHandle σ
  resources : RelayResourceLimiter
  rateLimiter : TangleRateLimiter
  hooks : σ
  now : UnixTimestamp

/-- The session holds what the reply to a `CLOSE` says. -/
structure FollowsClose (subscriptionId : SubscriptionId) (replies : Replies)
    (before after : LiveSubscriptionSet) : Prop where
  others : ∀ id ≠ subscriptionId, after.subscriptions[id]? = before.subscriptions[id]?
  failed : ∀ error, replies = .error error → after = before
  ended : ∀ messages, replies = .ok messages → after.subscriptions[subscriptionId]? = none

namespace SessionStep

variable (step : SessionStep σ) (session : TangleWebSocketSession)

/-- The session of the sample, with one open subscription. -/
def world : SessionWorld σ :=
  ⟨session, step.resources, step.rateLimiter, step.hooks⟩

/-- What the sample answers to a REQ for that subscription. -/
def handle : Replies × SessionWorld σ :=
  (step.world session).handleClientMessage step.runtime step.now step.message

/-- The session is left as the reply says. -/
def Follows : Prop :=
  match step.message with
  | .req req => FollowsReply step.runtime.completes req (step.handle session).1
      session.subscriptions (step.handle session).2.session.subscriptions
  | .close subscriptionId => FollowsClose subscriptionId (step.handle session).1
      session.subscriptions (step.handle session).2.session.subscriptions

/-- A request does not leave an id with the filters it had before. -/
def Settles : Prop :=
  ∀ req, step.message = .req req → (step.world session).Settles step.runtime req step.now

end SessionStep

/-- What holds of each message of a run, in the state in which the session is when it arrives. -/
def EveryStep (holds : SessionStep σ → TangleWebSocketSession → Prop) :
    List (SessionStep σ) → TangleWebSocketSession → Prop
  | [], _ => True
  | step :: rest, session =>
    holds step session ∧ EveryStep holds rest (step.handle session).2.session

/-- A CLOSE ends the subscription of its id, and no other. -/
theorem followsClose_handleClose {world after : SessionWorld σ} {replies : Replies}
    (h : world.handleClose subscriptionId = (replies, after)) :
    FollowsClose subscriptionId replies world.session.subscriptions
      after.session.subscriptions := by
  unfold SessionWorld.handleClose LiveSubscriptionSet.close at h
  split at h
  · cases h
    exact ⟨fun _ _ => rfl, fun _ _ => rfl, fun _ h => (nomatch h)⟩
  · cases hlive : world.session.subscriptions.contains subscriptionId with
    | false =>
      rw [hlive] at h
      cases h
      exact ⟨fun _ _ => rfl, fun _ _ => rfl, fun _ _ =>
        LiveSubscriptionSet.contains_eq_false.mp hlive⟩
    | true =>
      rw [hlive] at h
      cases h
      refine ⟨fun id hid => ?_, fun _ h => (nomatch h), fun _ _ => ?_⟩
      · exact BTreeMap.getElem?_erase.trans (if_neg hid.symm)
      · exact BTreeMap.getElem?_erase.trans (if_pos rfl)

/-- One message leaves the session as its reply says exactly when it settles. -/
theorem SessionStep.follows_iff {step : SessionStep σ} {session : TangleWebSocketSession} :
    step.Follows session ↔ step.Settles session := by
  unfold SessionStep.Follows SessionStep.Settles SessionStep.handle
  cases step.message with
  | req req =>
    refine (followsReply_handleReq_iff rfl).trans ⟨fun h other hother => ?_, fun h => h req rfl⟩
    cases hother
    exact h
  | close subscriptionId =>
    exact ⟨fun _ _ h => (nomatch h), fun _ => followsClose_handleClose rfl⟩

/-- **When subscriptions follow the replies.** In every run of requests and closes, each message
leaves the session with what its reply says exactly when each request that is closed or answered for
complete filters, and is not refused with an error, is for an id that is not live. -/
theorem followsReplies_iff (steps : List (SessionStep σ)) (session : TangleWebSocketSession) :
    EveryStep SessionStep.Follows steps session ↔ EveryStep SessionStep.Settles steps session := by
  induction steps generalizing session with
  | nil => exact Iff.rfl
  | cons step rest ih => exact and_congr SessionStep.follows_iff (ih _)

/-! ### A subscription that outlives its end -/

namespace Sample

/-- Hooks that change nothing. -/
def idle : RelayRuntimeHooks Unit where
  planQuery _ := fun s => (.beforeProjection, s)
  liveProjectionCandidates _ := fun s => ([], s)
  projectEvent _ := fun s => (.emit, s)

/-- A rule that the sample never reaches. -/
def often : TangleRateLimitRule :=
  ⟨60, 100, by decide, by decide⟩

/-- A relay without groups that has stored nothing. -/
def emptyRelay : RelayRuntimeHandle Unit where
  reads := plainReads
  events := []
  groups := none
  limits := ⟨64, 10, 100, 1000, 500, 100⟩
  query := ⟨false, 100, 3600⟩
  hooks := idle
  completes filter := !filter.ids.isEmpty
  reqRateLimits := ⟨often, often, often, often, often, often⟩

/-- A session that has just been opened. -/
def client : TangleWebSocketSession where
  connectionId := 1
  peerIp := none
  limits := emptyRelay.limits
  auth := .unauthenticated
  subscriptions := ⟨∅, 10⟩
  resourceLimited := true
  subscriptionPermits := ∅
  projection := ⟨none⟩

/-- A request for everything, and the state of the host when it arrives. -/
def askAll (searchPresent : Bool) : SessionStep Unit where
  message := .req ⟨feed, [anything], searchPresent⟩
  runtime := emptyRelay
  resources := .new 10
  rateLimiter := .new
  hooks := ()
  now := 100

end Sample

/-- A request that is closed because it asks for a search leaves the subscription of its id live,
which an earlier request had opened: its client has been told that it is closed. -/
theorem not_followsReplies_search : ¬ EveryStep SessionStep.Follows
    [Sample.askAll false, Sample.askAll true] Sample.client := by
  intro h
  have hended := h.2.1.closed _ "unsupported: search filters are not supported" rfl rfl
  have hlive : ((Sample.askAll true).handle ((Sample.askAll false).handle
      Sample.client).2.session).2.session.subscriptions.contains Sample.feed = true := by
    decide +kernel
  rw [← Bool.not_eq_false, LiveSubscriptionSet.contains_eq_false] at hlive
  exact hlive hended

end Tangle
