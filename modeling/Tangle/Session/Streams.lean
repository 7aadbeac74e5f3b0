import Tangle.Relay.IdentityProjections
import Tangle.Session.Connections
import Tangle.Session.RateBudgets

/-!
# What connections take from the event bus

However the connections of a process take turns, each of them takes from the event bus what was
published since it was opened, in order and without a gap; a connection that the bus has overtaken
takes nothing more and is closed (`consumed_without_gaps`). What an event has stored is published
once, by the connection that it came from (`published_once`).
-/

namespace Tangle

/-! ## Traces -/

namespace Observation

/-- The offset that an observation publishes, whoever publishes it. -/
def published? : Observation → Option StoreOffset
  | .published _ offset => some offset
  | _ => none

/-- The offset that an observation takes from the event bus for one connection. -/
def consumed? (connection : Nat) : Observation → Option StoreOffset
  | .consumed by' offset => if by' = connection then some offset else none
  | _ => none

end Observation

/-- The offsets that were published, in their order. -/
def publishedIn (trace : List Observation) : List StoreOffset :=
  trace.filterMap Observation.published?

/-- The offsets that a connection took from the event bus, in their order. -/
def consumedBy (connection : Nat) (trace : List Observation) : List StoreOffset :=
  trace.filterMap (Observation.consumed? connection)

section
variable {connection : Nat} {trace seen : List Observation}

/-- What is published in a longer trace. -/
@[simp] theorem publishedIn_append :
    publishedIn (trace ++ seen) = publishedIn trace ++ publishedIn seen :=
  List.filterMap_append

/-- What one connection takes in a longer trace. -/
@[simp] theorem consumedBy_append :
    consumedBy connection (trace ++ seen) = consumedBy connection trace ++
      consumedBy connection seen :=
  List.filterMap_append

end

variable {σ : Type} {runtime : RelaySessionRuntime σ} {process process' : RelayProcess σ}
  {live : LiveSession}

/-! ## Answers -/

namespace RelayProcess

/-- The process is as it was, but for what its connections share with those of other relays and for
what the store and the groups have become. -/
structure SameStreams (process after : RelayProcess σ) : Prop where
  eventBus : after.eventBus = process.eventBus
  nextConnectionId : after.nextConnectionId = process.nextConnectionId
  sessions : after.sessions = process.sessions

/-- A process has the streams that it has. -/
theorem SameStreams.refl (process : RelayProcess σ) : process.SameStreams process :=
  ⟨rfl, rfl, rfl⟩

/-- An answer leaves the queue and the bus as they were, and changes the groups and the store as the
submission of an event does, or not at all. -/
structure AnswersFrom (runtime : RelaySessionRuntime σ) (process : RelayProcess σ)
    (live : LiveSession) (answer : SessionAnswer σ) : Prop where
  streams : process.SameStreams answer.process
  outbound : answer.live.outbound = live.outbound
  nextEvent : answer.live.nextEvent = live.nextEvent
  unsubmitted : answer.submitted = none → answer.process.groups = process.groups ∧
    answer.process.store = process.store ∧ answer.storedOffsets = []
  submitted : ∀ event log, answer.submitted = some (event, log) → ∃ faults auth result,
    runtime.relay.submitFaulty faults event auth process.groups process.store =
        (result, answer.process.groups, answer.process.store, log) ∧
      answer.storedOffsets = publishedOffsets result

/-- An answer that only replies leaves the streams and the session's place in them. -/
theorem answersFrom_answered {replies : Except BaseRelayError (List SessionReply)}
    {rateLimiter : TangleRateLimiter} {hooks : σ} :
    AnswersFrom runtime process live
      (({ process with rateLimiter, hooks } : RelayProcess σ).answered live replies) := by
  constructor
  · exact ⟨rfl, rfl, rfl⟩
  · rfl
  · rfl
  · intro _
    exact ⟨rfl, rfl, rfl⟩
  · intro event log h
    cases h

/-- An event that goes to the store is answered from the same place in the bus. What is stored is
kept to be published, and nothing is published or taken yet. -/
theorem answersFrom_handlePocketEvent {event : PocketEvent} {faults : List (Option StoreFault)}
    {rateLimiter : TangleRateLimiter} {hooks : σ} :
    AnswersFrom runtime process live
      (({ process with rateLimiter, hooks } : RelayProcess σ).handlePocketEvent runtime live event
        faults) := by
  unfold handlePocketEvent
  rcases hsubmit : runtime.relay.submitFaulty faults event live.groupAuth process.groups
    process.store with ⟨result, groups, store, log⟩
  dsimp only
  constructor
  · exact ⟨rfl, rfl, rfl⟩
  · rfl
  · rfl
  · intro h
    cases h
  · intro event' log' h
    cases h
    exact ⟨faults, live.groupAuth, result, hsubmit, rfl⟩

/-- An event that is refused before it is stored publishes nothing; one that is not refused is
answered as `answersFrom_handlePocketEvent` says. -/
theorem answersFrom_handleEvent {event : PocketEvent} {now : UnixTimestamp}
    {faults : List (Option StoreFault)} :
    AnswersFrom runtime process live (process.handleEvent runtime live event now faults) := by
  unfold handleEvent admitPocketEvent
  dsimp only
  split
  · exact answersFrom_answered
  · split
    · exact answersFrom_answered
    · split
      · exact answersFrom_answered
      · split
        · exact answersFrom_answered
        · exact answersFrom_handlePocketEvent

/-- A count reads only. -/
theorem answersFrom_handleCount {subscriptionId : SubscriptionId} {filters : List PocketFilter}
    {searchPresent : Bool} {now : UnixTimestamp} :
    AnswersFrom runtime process live
      (process.handleCount runtime live subscriptionId filters searchPresent now) := by
  unfold handleCount
  dsimp only
  split
  · exact answersFrom_answered
  · split
    · exact answersFrom_answered
    · split
      · exact answersFrom_answered
      · split
        · exact answersFrom_answered
        · exact answersFrom_answered

/-- Each kind of message is answered without touching the streams: by the case of the message. -/
theorem answersFrom_handleClientMessage {message : ParsedClientMessage} {now : UnixTimestamp}
    {faults : List (Option StoreFault)} :
    AnswersFrom runtime process live
      (process.handleClientMessage runtime live message now faults) := by
  have hnothing : ∀ {answer : SessionAnswer σ}, process.SameStreams answer.process →
      answer.live.outbound = live.outbound → answer.live.nextEvent = live.nextEvent →
      answer.process.groups = process.groups → answer.process.store = process.store →
      answer.storedOffsets = [] → answer.submitted = none →
      AnswersFrom runtime process live answer := by
    intro answer hstreams houtbound hnext hgroups hstore hoffsets hnone
    refine ⟨hstreams, houtbound, hnext, fun _ => ⟨hgroups, hstore, hoffsets⟩, ?_⟩
    intro event log h
    rw [hnone] at h
    cases h
  cases message with
  | event event => exact answersFrom_handleEvent
  | auth event => exact hnothing ⟨rfl, rfl, rfl⟩ rfl rfl rfl rfl rfl rfl
  | req subscriptionId filters searchPresent =>
    exact hnothing ⟨rfl, rfl, rfl⟩ rfl rfl rfl rfl rfl rfl
  | count subscriptionId filters searchPresent => exact answersFrom_handleCount
  | close subscriptionId => exact hnothing ⟨rfl, rfl, rfl⟩ rfl rfl rfl rfl rfl rfl
  | negOpen subscriptionId filter message => exact answersFrom_answered
  | negMsg subscriptionId message => exact answersFrom_answered
  | negClose subscriptionId => exact answersFrom_answered

/-- A frame that does not end the connection is answered without touching the streams. -/
theorem answersFrom_handleIncomingMessage {message : WsMessage} {now : UnixTimestamp}
    {faults : List (Option StoreFault)} {answer : SessionAnswer σ}
    (h : process.handleIncomingMessage runtime live message now faults = some answer) :
    AnswersFrom runtime process live answer := by
  unfold handleIncomingMessage at h
  cases message with
  | text raw =>
    cases h
    unfold dispatchText
    dsimp only
    split
    · exact answersFrom_answered
    · split
      · exact answersFrom_answered
      · exact answersFrom_handleClientMessage
  | binary bytes =>
    cases h
    exact answersFrom_answered
  | ping payload => cases h
  | pong payload => cases h
  | close frame => cases h

/-- The fan-out of an offset reads the store and the groups, and changes neither. -/
theorem handleEventOffset_eq {offset : StoreOffset} {replies : List SessionReply}
    (h : process.handleEventOffset runtime live offset = (replies, process')) :
    process.SameStreams process' ∧ process'.groups = process.groups ∧
      process'.store = process.store := by
  unfold handleEventOffset at h
  split at h
  · cases h
    exact ⟨⟨rfl, rfl, rfl⟩, rfl, rfl⟩
  · cases h
    exact ⟨.refl process, rfl, rfl⟩

/-- A connection that is opened is subscribed to the bus from what is published next, has nothing
left to answer and holds its challenge alone in its queue. -/
theorem openSession_eq_some {options : SessionOptions} {message : SessionReply}
    (h : process.openSession runtime options = some (message, process')) :
    ∃ opened : LiveSession, opened.nextEvent = process.eventBus.sent ∧ opened.answering = none ∧
      LiveSession.enqueueRelayMessage runtime (.new runtime.outboundQueueCapacity) message =
        .ok opened.outbound ∧
      process' = { process with
        nextConnectionId := process.nextConnectionId + 1
        sessions := process.sessions.insert process.nextConnectionId opened } := by
  unfold openSession at h
  obtain ⟨subscriptions, _, h⟩ := Option.bind_eq_some_iff.mp h
  rcases hissue : issueAuthChallenge options.auth options.challenge options.now with ⟨first, auth⟩
  simp only [hissue] at h
  obtain ⟨outbound, houtbound, h⟩ := Option.bind_eq_some_iff.mp h
  cases h
  refine ⟨_, rfl, rfl, ?_, rfl⟩
  cases henqueue : LiveSession.enqueueRelayMessage runtime (.new runtime.outboundQueueCapacity)
    message with
  | error control =>
    rw [henqueue] at houtbound
    cases houtbound
  | ok queue =>
    rw [henqueue] at houtbound
    cases houtbound
    rfl

/-! ## Steps -/

/-- What a step that opens no connection does to the bus and to the places of the receivers. -/
structure StreamEffect (process : RelayProcess σ) (seen : List Observation)
    (process' : RelayProcess σ) : Prop where
  notOpened : ∀ connection, .opened connection ∉ seen
  nextConnectionId : process'.nextConnectionId = process.nextConnectionId
  eventBus : (publishedIn seen = [] ∧ process'.eventBus = process.eventBus) ∨
    ∃ offset, publishedIn seen = [offset] ∧ process'.eventBus = process.eventBus.send offset
  gone : ∀ connection, process.sessions[connection]? = none →
    process'.sessions[connection]? = none ∧ consumedBy connection seen = []
  stays : ∀ connection live, process.sessions[connection]? = some live →
    (consumedBy connection seen = [] ∧
      ∀ live', process'.sessions[connection]? = some live' → live'.nextEvent = live.nextEvent) ∨
    ∃ offset live', consumedBy connection seen = [offset] ∧ publishedIn seen = [] ∧
      process'.sessions[connection]? = some live' ∧
      process.eventBus.recv live.nextEvent = (.value offset, live'.nextEvent)

/-- No offset is published or taken, and no connection opened. -/
structure Still (seen : List Observation) : Prop where
  notOpened : ∀ connection, .opened connection ∉ seen
  published : publishedIn seen = []
  consumed : ∀ connection, consumedBy connection seen = []

/-- A connection that goes on with the place it had in the bus has the effect of a step that opens,
publishes and takes nothing. -/
theorem streamEffect_keepSession {seen : List Observation} {connection : Nat} {live' : LiveSession}
    (hseen : Still seen) (hlive : process.sessions[connection]? = some live)
    (hstreams : process.SameStreams process') (hnext : live'.nextEvent = live.nextEvent) :
    StreamEffect process seen (process'.keepSession connection live') := by
  have hsessions : ∀ other, (process'.keepSession connection live').sessions[other]? =
      if connection = other then some live' else process.sessions[other]? := by
    intro other
    unfold keepSession
    rw [BTreeMap.getElem?_insert, hstreams.sessions]
  constructor
  · exact hseen.notOpened
  · exact hstreams.nextConnectionId
  · exact .inl ⟨hseen.published, hstreams.eventBus⟩
  · intro other hnone
    refine ⟨?_, hseen.consumed other⟩
    rw [hsessions, if_neg, hnone]
    rintro rfl
    rw [hlive] at hnone
    cases hnone
  · intro other before hbefore
    refine .inl ⟨hseen.consumed other, ?_⟩
    intro after hafter
    rw [hsessions] at hafter
    split at hafter
    · next heq =>
      subst heq
      cases hafter
      cases hlive.symm.trans hbefore
      exact hnext
    · cases hbefore.symm.trans hafter
      rfl

/-- So has a connection that ends: it leaves the process, and the other ones are as before. -/
theorem streamEffect_endSession {seen : List Observation} {connection : Nat}
    (hseen : Still seen) : StreamEffect process seen (process.endSession connection live) := by
  have hsessions : ∀ other, (process.endSession connection live).sessions[other]? =
      if connection = other then none else process.sessions[other]? :=
    fun other => BTreeMap.getElem?_erase
  constructor
  · exact hseen.notOpened
  · rfl
  · exact .inl ⟨hseen.published, rfl⟩
  · intro other hnone
    refine ⟨?_, hseen.consumed other⟩
    rw [hsessions, hnone, ite_self]
  · intro other before hbefore
    refine .inl ⟨hseen.consumed other, ?_⟩
    intro after hafter
    rw [hsessions] at hafter
    split at hafter
    · cases hafter
    · cases hbefore.symm.trans hafter
      rfl

/-- An observation that opens, publishes and takes nothing is still. -/
theorem still_single {observation : Observation}
    (hopened : ∀ connection, observation ≠ .opened connection)
    (hpublished : observation.published? = none)
    (hconsumed : ∀ connection, observation.consumed? connection = none) : Still [observation] := by
  constructor
  · intro connection h
    exact hopened connection (List.mem_singleton.mp h).symm
  · rw [publishedIn, List.filterMap_cons_none hpublished, List.filterMap_nil]
  · intro connection
    rw [consumedBy, List.filterMap_cons_none (hconsumed connection), List.filterMap_nil]

/-- Nothing seen is still. -/
theorem still_nil : Still [] :=
  ⟨fun _ => List.not_mem_nil, rfl, fun _ => rfl⟩

/-- What is still one after the other is still. -/
theorem Still.append {seen more : List Observation} (h : Still seen) (hmore : Still more) :
    Still (seen ++ more) := by
  constructor
  · intro connection hopened
    rcases List.mem_append.mp hopened with hopened | hopened
    · exact h.notOpened connection hopened
    · exact hmore.notOpened connection hopened
  · rw [publishedIn_append, h.published, hmore.published, List.append_nil]
  · intro connection
    rw [consumedBy_append, h.consumed, hmore.consumed, List.append_nil]

/-- Writing a message is still. -/
theorem still_wrote {connection : Nat} {message : WsMessage} : Still [.wrote connection message] :=
  still_single (fun _ h => by cases h) rfl fun _ => rfl

/-- The end of a connection is still. -/
theorem still_ended {connection : Nat} : Still [.ended connection] :=
  still_single (fun _ h => by cases h) rfl fun _ => rfl

/-- Answering is still. -/
theorem still_answered {connection : Nat} {replies : List SessionReply} :
    Still [.answered connection replies] :=
  still_single (fun _ h => by cases h) rfl fun _ => rfl

/-- Storing events is still: their offsets are published by later steps. -/
theorem still_stored {connection : Nat} {offsets : List StoreOffset} :
    Still [.stored connection offsets] :=
  still_single (fun _ h => by cases h) rfl fun _ => rfl

/-- A message that may be written is still. -/
theorem still_wroteIf {connection : Nat} {message : WsMessage} {written : Bool} :
    Still (if written then [.wrote connection message] else []) := by
  split
  · exact still_wrote
  · exact still_nil

/-- The last message of a connection that ends is still. -/
theorem still_closing {connection : Nat} {last : Option WsMessage} :
    Still (last.toList.map fun message => .wrote connection message) := by
  cases last with
  | none => exact still_nil
  | some message => exact still_wrote

variable {allowed : Option GroupServiceState → PocketStore → PocketEvent →
  List StoreExchange → Prop} {start : PocketStore} {trace seen : List Observation}

/-- A step opens a connection, or moves the bus and the receivers as `StreamEffect` says. -/
theorem Step.streamEffect (h : Step runtime allowed process seen process') :
    (∃ options message, seen = [.opened process.nextConnectionId,
        .answered process.nextConnectionId [message]] ∧
      process.openSession runtime options = some (message, process')) ∨
    StreamEffect process seen process' := by
  cases h with
  | opens hopens => exact .inl ⟨_, _, rfl, hopens⟩
  | receives hlive _ hanswer _ =>
    have hfrom := answersFrom_handleIncomingMessage hanswer
    exact .inr (streamEffect_keepSession still_stored hlive hfrom.streams hfrom.nextEvent)
  | @publishes connection live offset offsets replies hlive _ =>
    right
    have hsessions : ∀ other, (({ process with eventBus := process.eventBus.send offset } :
        RelayProcess σ).keepSession connection
          { live with answering := some (offsets, replies) }).sessions[other]? =
        if connection = other then some { live with answering := some (offsets, replies) }
        else process.sessions[other]? := fun other => BTreeMap.getElem?_insert
    constructor
    · intro other hopened
      cases List.mem_singleton.mp hopened
    · rfl
    · exact .inr ⟨offset, rfl, rfl⟩
    · intro other hnone
      refine ⟨?_, rfl⟩
      rw [hsessions, if_neg, hnone]
      rintro rfl
      rw [hlive] at hnone
      cases hnone
    · intro other before hbefore
      refine .inl ⟨rfl, ?_⟩
      intro after hafter
      rw [hsessions] at hafter
      split at hafter
      · next heq =>
        subst heq
        cases hafter
        cases hlive.symm.trans hbefore
        rfl
      · cases hbefore.symm.trans hafter
        rfl
  | @consumes after connection live offset next replies hlive _ hrecv hreplies =>
    right
    obtain ⟨hstreams, _, _⟩ := handleEventOffset_eq hreplies
    have hsessions : ∀ other, (after.keepSession connection
          { live with nextEvent := next, answering := some ([], replies) }).sessions[other]? =
        if connection = other then
          some { live with nextEvent := next, answering := some ([], replies) }
        else process.sessions[other]? := by
      intro other
      unfold keepSession
      rw [BTreeMap.getElem?_insert, hstreams.sessions]
    have hconsumed : ∀ other, consumedBy other [.consumed connection offset] =
        if connection = other then [offset] else [] := by
      intro other
      simp only [consumedBy, List.filterMap_cons, List.filterMap_nil, Observation.consumed?]
      split <;> simp_all
    constructor
    · intro other hopened
      cases List.mem_singleton.mp hopened
    · exact hstreams.nextConnectionId
    · exact .inl ⟨rfl, hstreams.eventBus⟩
    · intro other hnone
      have hne : connection ≠ other := by
        rintro rfl
        rw [hlive] at hnone
        cases hnone
      rw [hsessions, if_neg hne, hconsumed, if_neg hne]
      exact ⟨hnone, rfl⟩
    · intro other before hbefore
      rw [hconsumed, hsessions]
      by_cases heq : connection = other
      · subst heq
        cases hlive.symm.trans hbefore
        rw [if_pos rfl, if_pos rfl]
        exact .inr ⟨offset, _, rfl, rfl, rfl, hrecv⟩
      · rw [if_neg heq, if_neg heq]
        refine .inl ⟨rfl, ?_⟩
        intro live' hafter
        cases hbefore.symm.trans hafter
        rfl
  | lags written _ _ _ =>
    exact .inr (streamEffect_endSession (still_wroteIf.append still_ended))
  | replies hlive _ _ => exact .inr (streamEffect_keepSession still_answered hlive (.refl _) rfl)
  | repliesClose written _ _ _ =>
    exact .inr (streamEffect_endSession
      ((still_answered.append still_wroteIf).append still_ended))
  | writes hlive _ _ => exact .inr (streamEffect_keepSession still_wrote hlive (.refl _) rfl)
  | keepsAlive hlive _ _ =>
    refine .inr ⟨still_wrote.notOpened, rfl, .inl ⟨rfl, rfl⟩, ?_, ?_⟩
    · intro other hnone
      exact ⟨hnone, rfl⟩
    · intro other before hbefore
      refine .inl ⟨rfl, ?_⟩
      intro after hafter
      cases hbefore.symm.trans hafter
      rfl
  | ends _ _ _ => exact .inr (streamEffect_endSession (still_closing.append still_ended))
  | shares _ _ _ =>
    refine .inr ⟨still_nil.notOpened, rfl, .inl ⟨rfl, rfl⟩, ?_, ?_⟩
    · intro other hnone
      exact ⟨hnone, rfl⟩
    · intro other before hbefore
      refine .inl ⟨rfl, ?_⟩
      intro after hafter
      cases hbefore.symm.trans hafter
      rfl

/-! ## Runs -/

/-- The bus holds what was published; each connection that was opened follows it, and stands where
it has got to. -/
structure Tracked (trace : List Observation) (process : RelayProcess σ) : Prop where
  carries : process.eventBus.Carries (publishedIn trace)
  before : ∀ connection, .opened connection ∈ trace → connection < process.nextConnectionId
  opened : ∀ connection live, process.sessions[connection]? = some live →
    .opened connection ∈ trace
  follows : ∀ connection earlier later, trace = earlier ++ .opened connection :: later →
    ∃ rest next, Following (publishedIn trace) (publishedIn earlier)
      (consumedBy connection later) rest
        next ∧
      ∀ live, process.sessions[connection]? = some live → live.nextEvent = next

/-- **Each step keeps track.** A step is still, publishes one offset, takes one or opens one
connection; what a connection has taken, and what is left for it in the bus, goes on accordingly. -/
theorem Tracked.step (h : Tracked trace process)
    (hstep : Step runtime allowed process seen process') :
    Tracked (trace ++ seen) process' := by
  rcases hstep.streamEffect with ⟨options, message, rfl, hopens⟩ | heffect
  · obtain ⟨opened, hnext, _, _, rfl⟩ := openSession_eq_some hopens
    have hnone : .opened process.nextConnectionId ∉ trace := fun hmem =>
      Nat.lt_irrefl _ (h.before _ hmem)
    have hpublished : publishedIn (trace ++ [.opened process.nextConnectionId,
        .answered process.nextConnectionId [message]]) = publishedIn trace := by
      rw [publishedIn_append]
      exact List.append_nil _
    have hold : ∀ {connection : Nat}, .opened connection ∈ trace →
        process.nextConnectionId ≠ connection := by
      rintro connection hmem rfl
      exact hnone hmem
    constructor
    · rw [hpublished]
      exact h.carries
    · intro connection hmem
      rcases List.mem_append.mp hmem with hmem | hmem
      · exact Nat.lt_succ_of_lt (h.before connection hmem)
      · rcases List.mem_cons.mp hmem with hsame | hother
        · cases hsame
          exact Nat.lt_succ_self _
        · cases List.mem_singleton.mp hother
    · intro connection live hlive
      rw [BTreeMap.getElem?_insert] at hlive
      split at hlive
      · next heq =>
        subst heq
        exact List.mem_append_right _ (List.mem_cons_self ..)
      · exact List.mem_append_left _ (h.opened connection live hlive)
    · intro connection earlier later htrace
      rw [hpublished]
      rcases split_opened htrace with ⟨rfl, rfl, rfl⟩ | ⟨between, hbefore, hlater⟩
      · refine ⟨[], process.eventBus.sent, .subscribe Broadcast.laws h.carries, ?_⟩
        intro live hlive
        rw [BTreeMap.getElem?_insert_self] at hlive
        cases hlive
        exact hnext
      · obtain ⟨rest, next, hfollows, hplace⟩ := h.follows connection earlier between hbefore
        have hmem : .opened connection ∈ trace := by
          rw [hbefore]
          exact List.mem_append_right _ (List.mem_cons_self ..)
        have hquiet : consumedBy connection later = consumedBy connection between := by
          rw [hlater, consumedBy_append]
          exact List.append_nil _
        rw [hquiet]
        refine ⟨rest, next, hfollows, ?_⟩
        intro live hlive
        rw [BTreeMap.getElem?_insert_ne (hold hmem)] at hlive
        exact hplace live hlive
  · have hcarries : process'.eventBus.Carries (publishedIn (trace ++ seen)) := by
      rw [publishedIn_append]
      rcases heffect.eventBus with ⟨hnothing, hbus⟩ | ⟨offset, hone, hbus⟩
      · rw [hnothing, hbus, List.append_nil]
        exact h.carries
      · rw [hone, hbus]
        exact h.carries.send
    constructor
    · exact hcarries
    · intro connection hmem
      rw [heffect.nextConnectionId]
      rcases List.mem_append.mp hmem with hmem | hmem
      · exact h.before connection hmem
      · exact absurd hmem (heffect.notOpened connection)
    · intro connection live' hlive'
      refine List.mem_append_left _ ?_
      cases hlive : process.sessions[connection]? with
      | none =>
        rw [(heffect.gone connection hlive).1] at hlive'
        cases hlive'
      | some live => exact h.opened connection live hlive
    · intro connection earlier later htrace
      obtain ⟨between, htrace', rfl⟩ :
          ∃ between, trace = earlier ++ .opened connection :: between ∧
            later = between ++ seen := by
        rcases split_seen htrace with ⟨more, _, hseen⟩ | hbefore
        · refine absurd ?_ (heffect.notOpened connection)
          rw [hseen]
          exact List.mem_append_right _ (List.mem_cons_self ..)
        · exact hbefore
      obtain ⟨rest, next, hfollows, hplace⟩ := h.follows connection earlier between htrace'
      have hquiet : consumedBy connection seen = [] →
          ∃ rest', Following (publishedIn (trace ++ seen)) (publishedIn earlier)
            (consumedBy connection (between ++ seen)) rest' next := by
        intro hnothing
        rw [publishedIn_append, consumedBy_append, hnothing, List.append_nil]
        rcases heffect.eventBus with ⟨hnone, _⟩ | ⟨offset, hone, _⟩
        · rw [hnone, List.append_nil]
          exact ⟨rest, hfollows⟩
        · rw [hone]
          exact ⟨_, hfollows.extend⟩
      cases hlive : process.sessions[connection]? with
      | none =>
        obtain ⟨hgone, hnothing⟩ := heffect.gone connection hlive
        obtain ⟨rest', hfollows'⟩ := hquiet hnothing
        refine ⟨rest', next, hfollows', ?_⟩
        intro live' hlive'
        rw [hgone] at hlive'
        cases hlive'
      | some live =>
        have hnext := hplace live hlive
        rcases heffect.stays connection live hlive with ⟨hnothing, hsame⟩ |
          ⟨offset, live', hone, hnone, hlive', hrecv⟩
        · obtain ⟨rest', hfollows'⟩ := hquiet hnothing
          refine ⟨rest', next, hfollows', ?_⟩
          intro live' hlive'
          exact (hsame live' hlive').trans hnext
        · rw [hnext] at hrecv
          obtain ⟨rest', _, hfollows'⟩ := hfollows.received Broadcast.laws h.carries hrecv
          refine ⟨rest', live'.nextEvent, ?_, ?_⟩
          · rw [publishedIn_append, consumedBy_append, hnone, hone, List.append_nil]
            exact hfollows'
          · intro other hother
            cases hlive'.symm.trans hother
            rfl

/-- Every run keeps track, by induction on its steps. -/
theorem Runs.tracked (h : Runs runtime allowed start trace process) : Tracked trace process := by
  induction h with
  | started _ =>
    constructor
    · exact Broadcast.carries_new
    · intro connection hmem
      cases hmem
    · intro connection live hlive
      rw [BTreeMap.getElem?_empty] at hlive
      cases hlive
    · intro connection earlier later htrace
      cases earlier <;> cases htrace
  | step _ hstep ih => exact ih.step hstep

end RelayProcess

/-- **Connections take what is published without gaps.** Whatever the connections of a process do,
in any order: what a connection has taken from the event bus is the first part of what was published
since it was opened. One that is open is given the next of the rest, unless the rest is longer than
the bus: then it is told so. -/
theorem consumed_without_gaps {σ : Type} {runtime : RelaySessionRuntime σ}
    {allowed : Option GroupServiceState → PocketStore → PocketEvent →
      List StoreExchange → Prop} {start : PocketStore}
    {trace earlier later : List Observation} {process : RelayProcess σ} {connection : Nat}
    (h : RelayProcess.Runs runtime allowed start trace process)
    (hopened : trace = earlier ++ .opened connection :: later) :
    ∃ rest, publishedIn later = consumedBy connection later ++ rest ∧
      ∀ live, process.sessions[connection]? = some live →
        (process.eventBus.recv live.nextEvent).1 =
          if rest.length ≤ process.eventBus.slots then
            (rest.head?.elim .empty .value : Received StoreOffset)
          else
            .lagged (rest.length - process.eventBus.slots) := by
  have htracked := h.tracked
  obtain ⟨rest, next, hfollows, hplace⟩ := htracked.follows connection earlier later hopened
  refine ⟨rest, ?_, ?_⟩
  · have hvalues := hfollows.values
    have hsplit : publishedIn trace = publishedIn earlier ++ publishedIn later := by
      rw [hopened, publishedIn_append]
      rfl
    rw [hsplit, List.append_assoc] at hvalues
    exact List.append_cancel_left hvalues
  · intro live hlive
    rw [hplace live hlive, hfollows.recv_eq Broadcast.laws htracked.carries]
    split
    · cases rest <;> rfl
    · rfl

namespace Sample

/-- A Pocket that reads notes by their time, and a filter that every event matches. -/
def noteParsers : ClientParsers where
  json := compactJson
  typeError _ expected := s!"invalid type, expected {expected}"
  parsePocketEventJson value :=
    match value.asU64 with
    | some createdAt => .ok (note createdAt.toNat)
    | none => .error "not a note"
  parsePocketFilterJson _ := .ok anything

/-- Connections whose queues hold four messages, with hooks that emit every event. -/
def liveRuntime : RelaySessionRuntime Unit where
  relay := relay
  reads := plainReads
  groups := ungrouped
  rateLimits := ⟨⟨hundredInTen, hundredInTen, hundredInTen, hundredInTen⟩,
    ⟨hundredInTen, hundredInTen, hundredInTen⟩,
    ⟨hundredInTen, hundredInTen, hundredInTen, hundredInTen, hundredInTen, hundredInTen⟩,
    queryRules, queryRules⟩
  requestLimits := ⟨64, 10, 100, 1000, 500, 100⟩
  admitEvent _ := pure .accept
  deliveryHooks := emitting
  query := ⟨false, 100, 3600⟩
  completes _ := false
  parsers := noteParsers
  asJson event := .ok (Text.toBytes event.id.text)
  sanitizePublicMessage message := message
  maxMessageLength := 1000
  outboundQueueCapacity := 4
  maxPendingEvents := 10
  maxSubscriptions := 10

/-- How a visitor connects. -/
def visitor : RelayProcess.SessionOptions :=
  ⟨none, false, ⟨none⟩, newSession, .ok "c".toList, 100⟩

/-- The request of a visitor for all notes. -/
def requestText : Text :=
  compactJson.toText (.array [.string "REQ".toList, .string "feed".toList, .object []])

/-- The note of a visitor, as the client sends it. -/
def noteText (createdAt : UInt64) : Text :=
  compactJson.toText (.array [.string "EVENT".toList, .unsigned createdAt])

/-- Submissions that go through, where groups are off. -/
def throughUngrouped (groups : Option GroupServiceState) (_store : PocketStore)
    (event : PocketEvent)
    (log : List StoreExchange) : Bool :=
  groups.isNone && decide (NothingFailsLate log) && decide (event.Fits codec)

/-- A process that has started, whose bus has two slots. -/
def fresh : RelayProcess Unit :=
  ⟨none, .empty, .new 2 Nat.zero_lt_two, .new, ⟨10, 0⟩, (), 0, ∅⟩

/-- A process that has just started has run. -/
theorem runs_fresh {allowed : Option GroupServiceState → PocketStore → PocketEvent →
    List StoreExchange → Prop} : RelayProcess.Runs liveRuntime allowed .empty [] fresh := by
  have hstart : relay.Step (.down .empty) (.started ungrouped 0) (.up none .empty) := .started rfl
  exact .started hstart

/-- Where groups are off, what is permitted goes through. -/
theorem goesThrough_of_throughUngrouped {groups : Option GroupServiceState} {store : PocketStore}
    {event : PocketEvent} {log : List StoreExchange}
    (h : throughUngrouped groups store event log = true) :
    event.Fits liveRuntime.relay.codec ∧ GoesThrough liveRuntime.relay groups store event log := by
  simp only [throughUngrouped, Bool.and_eq_true, decide_eq_true_eq, Option.isNone_iff_eq_none] at h
  obtain ⟨⟨hnone, hlate⟩, hfits⟩ := h
  refine ⟨hfits, hlate, ?_⟩
  intro _ state eventClass hsome
  rw [hnone] at hsome
  cases hsome

/-- What is taken from the process. -/
def takenFrom (turns : List RelayProcess.Turn) :
    Option (List Observation × RelayProcess Unit) :=
  fresh.takeAll liveRuntime throughUngrouped turns

/-- What a check finds after some turns it finds after a run. -/
theorem runs_of_takenFrom {turns : List RelayProcess.Turn}
    {check : List Observation × RelayProcess Unit → Prop} [DecidablePred check]
    (h : (takenFrom turns).any (fun taken => decide (check taken)) = true) :
    ∃ trace process, RelayProcess.Runs liveRuntime (GoesThrough liveRuntime.relay) .empty trace
      process ∧ check (trace, process) := by
  obtain ⟨⟨trace, process⟩, htaken, hcheck⟩ := (Option.any_eq_true _ _).mp h
  refine ⟨trace, process, ?_, of_decide_eq_true hcheck⟩
  exact runs_fresh.continues (RelayProcess.continues_of_takeAll
    (fun _ _ _ _ => goesThrough_of_throughUngrouped) htaken)

/-- What is taken from the process in three parts, the second of which is one turn. -/
def takenAround (past : List RelayProcess.Turn) (turn : RelayProcess.Turn)
    (future : List RelayProcess.Turn) : Option ((List Observation × RelayProcess Unit) ×
      (List Observation × RelayProcess Unit) × (List Observation × RelayProcess Unit)) := do
  let (trace, before) ← takenFrom past
  let (seen, after) ← before.take liveRuntime throughUngrouped turn
  let (later, process) ← after.takeAll liveRuntime throughUngrouped future
  return ((trace, before), (seen, after), (later, process))

/-- What a check finds around a turn it finds around a step. -/
theorem cut_of_takenAround {past future : List RelayProcess.Turn} {turn : RelayProcess.Turn}
    {check : (List Observation × RelayProcess Unit) × (List Observation × RelayProcess Unit) ×
      (List Observation × RelayProcess Unit) → Prop} [DecidablePred check]
    (h : (takenAround past turn future).any (fun taken => decide (check taken)) = true) :
    ∃ trace before seen after later process,
      RelayProcess.Runs liveRuntime (GoesThrough liveRuntime.relay) .empty trace before ∧
        RelayProcess.Step liveRuntime (GoesThrough liveRuntime.relay) before seen after ∧
        RelayProcess.Continues liveRuntime (GoesThrough liveRuntime.relay) after later process ∧
        check ((trace, before), (seen, after), (later, process)) := by
  obtain ⟨taken, htaken, hcheck⟩ := (Option.any_eq_true _ _).mp h
  obtain ⟨⟨trace, before⟩, hpast, htaken⟩ := Option.bind_eq_some_iff.mp htaken
  obtain ⟨⟨seen, after⟩, hturn, htaken⟩ := Option.bind_eq_some_iff.mp htaken
  obtain ⟨⟨later, process⟩, hfuture, htaken⟩ := Option.bind_eq_some_iff.mp htaken
  cases htaken
  refine ⟨trace, before, seen, after, later, process, ?_, ?_, ?_, of_decide_eq_true hcheck⟩
  · exact runs_fresh.continues (RelayProcess.continues_of_takeAll
      (fun _ _ _ _ => goesThrough_of_throughUngrouped) hpast)
  · exact RelayProcess.step_of_take (fun _ _ _ _ => goesThrough_of_throughUngrouped) hturn
  · exact RelayProcess.continues_of_takeAll (fun _ _ _ _ => goesThrough_of_throughUngrouped) hfuture

/-- Of two visitors one asks for notes. Each posts a note, and both notes are sent to the one who
has asked. -/
def visit : List RelayProcess.Turn :=
  [.opens visitor, .opens visitor, .receives 0 (.text requestText) 100 [], .replies 0 true,
    .receives 1 (.text (noteText 20)) 101 [], .receives 0 (.text (noteText 30)) 102 [],
    .publishes 0, .publishes 1, .replies 0 true, .replies 1 true, .consumes 0, .replies 0 true,
    .writes 0, .writes 0, .consumes 0, .replies 0 true, .writes 0]

end Sample

open Sample in
/-- The visitor who has asked takes both offsets, in the order in which they were published. -/
theorem consumed_without_gaps_visit : ∃ trace earlier later process,
    RelayProcess.Runs liveRuntime (GoesThrough liveRuntime.relay) .empty trace process ∧
      trace = earlier ++ .opened 0 :: later ∧ consumedBy 0 trace = [152, 8] ∧
      ∃ rest, publishedIn later = consumedBy 0 later ++ rest := by
  have htaken : (takenFrom visit).any (fun taken => decide (.opened 0 ∈ taken.1 ∧
      consumedBy 0 taken.1 = [152, 8])) = true := by
    decide +kernel
  obtain ⟨trace, process, hruns, hopened, hboth⟩ := runs_of_takenFrom htaken
  obtain ⟨earlier, later, htrace⟩ := List.append_of_mem hopened
  obtain ⟨rest, hrest, -⟩ := consumed_without_gaps hruns htrace
  exact ⟨trace, earlier, later, process, hruns, htrace, hboth, rest, hrest⟩

/-! ## What is published -/

namespace Observation

/-- The offset that one connection publishes in an observation. -/
def publishedBy? (connection : Nat) : Observation → Option StoreOffset
  | .published by' offset => if by' = connection then some offset else none
  | _ => none

/-- The offsets of the events that came from one connection in an observation. -/
def storedBy (connection : Nat) : Observation → List StoreOffset
  | .stored by' offsets => if by' = connection then offsets else []
  | _ => []

/-- The offsets of the events that are stored in an observation. -/
def offsetsStored : Observation → List StoreOffset
  | .stored _ offsets => offsets
  | _ => []

end Observation

/-- The offsets that one connection publishes in a trace. -/
def publishedBy (connection : Nat) (trace : List Observation) : List StoreOffset :=
  trace.filterMap (Observation.publishedBy? connection)

/-- The offsets of the events that came from one connection in a trace. -/
def storedBy (connection : Nat) (trace : List Observation) : List StoreOffset :=
  trace.flatMap (Observation.storedBy connection)

/-- The offsets that were stored, in their order. -/
def storedIn (trace : List Observation) : List StoreOffset :=
  trace.flatMap Observation.offsetsStored

section
variable {connection : Nat} {trace seen : List Observation} {offset : StoreOffset}

/-- What one connection publishes in a longer trace. -/
@[simp] theorem publishedBy_append :
    publishedBy connection (trace ++ seen) = publishedBy connection trace ++
      publishedBy connection seen :=
  List.filterMap_append

/-- What comes from one connection in a longer trace. -/
@[simp] theorem storedBy_append :
    storedBy connection (trace ++ seen) = storedBy connection trace ++ storedBy connection seen :=
  List.flatMap_append

/-- What is stored in a longer trace. -/
@[simp] theorem storedIn_append : storedIn (trace ++ seen) = storedIn trace ++ storedIn seen :=
  List.flatMap_append

/-- An offset is published by the connection that publishes it, and by no other. -/
theorem publishedBy_single {other : Nat} : publishedBy connection [.published other offset] =
    if other = connection then [offset] else [] := by
  by_cases heq : other = connection
  · rw [if_pos heq]
    exact List.filterMap_cons_some (if_pos heq)
  · rw [if_neg heq]
    exact List.filterMap_cons_none (if_neg heq)

/-- What is published is published by some connection. -/
theorem mem_publishedIn : offset ∈ publishedIn trace ↔
    ∃ connection, offset ∈ publishedBy connection trace := by
  simp only [publishedIn, publishedBy, List.mem_filterMap]
  constructor
  · rintro ⟨observation, hmem, hpublished⟩
    cases observation with
    | published by' other =>
      cases hpublished
      exact ⟨by', _, hmem, if_pos rfl⟩
    | _ => cases hpublished
  · rintro ⟨connection, observation, hmem, hpublished⟩
    cases observation with
    | published by' other =>
      simp only [Observation.publishedBy?] at hpublished
      split at hpublished
      · exact ⟨_, hmem, hpublished⟩
      · cases hpublished
    | _ => cases hpublished

/-- What is stored came from some connection. -/
theorem mem_storedIn : offset ∈ storedIn trace ↔
    ∃ connection, offset ∈ storedBy connection trace := by
  simp only [storedIn, storedBy, List.mem_flatMap]
  constructor
  · rintro ⟨observation, hmem, hstored⟩
    cases observation with
    | stored by' offsets =>
      refine ⟨by', _, hmem, ?_⟩
      rw [Observation.storedBy, if_pos rfl]
      exact hstored
    | _ => cases hstored
  · rintro ⟨connection, observation, hmem, hstored⟩
    cases observation with
    | stored by' offsets =>
      simp only [Observation.storedBy] at hstored
      split at hstored
      · exact ⟨_, hmem, hstored⟩
      · cases hstored
    | _ => cases hstored

/-- An offset that was stored once was stored by one connection. -/
theorem storedBy_of_nodup (h : (storedIn trace).Nodup) :
    (storedBy connection trace).Nodup ∧ ∀ other, offset ∈ storedBy connection trace →
      offset ∈ storedBy other trace → connection = other := by
  induction trace with
  | nil => exact ⟨.nil, fun _ hmem => absurd hmem List.not_mem_nil⟩
  | cons observation rest ih =>
    obtain ⟨hfirst, hrest, hapart⟩ := List.nodup_append.mp h
    obtain ⟨hnodup, hsame⟩ := ih hrest
    have hsub : ∀ {id : Nat}, offset ∈ storedBy id rest → offset ∈ storedIn rest := fun hmem =>
      mem_storedIn.mpr ⟨_, hmem⟩
    cases observation with
    | stored by' offsets =>
      have hfirstOf : ∀ {id : Nat} {o : StoreOffset},
          o ∈ Observation.storedBy id (.stored by' offsets) → by' = id ∧ o ∈ offsets := by
        intro id o hmem
        simp only [Observation.storedBy] at hmem
        split at hmem
        · next heq => exact ⟨heq, hmem⟩
        · cases hmem
      constructor
      · refine List.nodup_append.mpr ⟨?_, hnodup, ?_⟩
        · simp only [Observation.storedBy]
          split
          · exact hfirst
          · exact .nil
        · intro a ha b hb heq
          exact hapart a (hfirstOf ha).2 b (mem_storedIn.mpr ⟨_, hb⟩) heq
      · intro other hmine hother
        rcases List.mem_append.mp hmine with hmine | hmine <;>
          rcases List.mem_append.mp hother with hother | hother
        · exact (hfirstOf hmine).1.symm.trans (hfirstOf hother).1
        · exact absurd rfl (hapart offset (hfirstOf hmine).2 offset (hsub hother))
        · exact absurd rfl (hapart offset (hfirstOf hother).2 offset (hsub hmine))
        · exact hsame other hmine hother
    | _ => exact ⟨hnodup, hsame⟩

/-- What each connection publishes once, and no other, is published once. -/
theorem nodup_publishedIn (hnodup : ∀ connection, (publishedBy connection trace).Nodup)
    (hapart : ∀ one other offset, offset ∈ publishedBy one trace →
      offset ∈ publishedBy other trace →
      one = other) : (publishedIn trace).Nodup := by
  induction trace with
  | nil => exact .nil
  | cons observation rest ih =>
    have hsub : ∀ {id : Nat} {o : StoreOffset}, o ∈ publishedBy id rest →
        o ∈ publishedBy id (observation :: rest) := by
      intro id o hmem
      show o ∈ publishedBy id ([observation] ++ rest)
      rw [publishedBy_append]
      exact List.mem_append_right _ hmem
    have hrest : (publishedIn rest).Nodup := by
      refine ih (fun id => ?_) fun one other o hone hother =>
        hapart one other o (hsub hone) (hsub hother)
      have hall := hnodup id
      rw [show observation :: rest = [observation] ++ rest from rfl, publishedBy_append] at hall
      exact (List.nodup_append.mp hall).2.1
    cases observation with
    | published by' offset =>
      refine List.nodup_cons.mpr ⟨fun hmem => ?_, hrest⟩
      obtain ⟨other, hother⟩ := mem_publishedIn.mp hmem
      have hfirst : publishedBy by' (.published by' offset :: rest) =
          offset :: publishedBy by' rest :=
        List.filterMap_cons_some (if_pos rfl)
      have hsame : by' = other := by
        refine hapart by' other offset ?_ (hsub hother)
        rw [hfirst]
        exact List.mem_cons_self ..
      subst hsame
      have hall := hnodup by'
      rw [hfirst] at hall
      exact (List.nodup_cons.mp hall).1 hother
    | _ => exact hrest

end

/-- What a connection has stored and is still to publish. -/
def LiveSession.unpublished (live : LiveSession) : List StoreOffset :=
  live.answering.elim [] Prod.fst

namespace RelayProcess

variable {allowed : Option GroupServiceState → PocketStore → PocketEvent →
  List StoreExchange → Prop} {start : PocketStore} {trace seen : List Observation}

/-- What the connection of an id is still to publish. -/
def owes (process : RelayProcess σ) (connection : Nat) : List StoreOffset :=
  process.sessions[connection]?.elim [] LiveSession.unpublished

/-- An open connection owes what its session has not published yet. -/
theorem owes_of_live {connection : Nat} (hlive : process.sessions[connection]? = some live) :
    process.owes connection = live.unpublished := by
  rw [owes, hlive]
  rfl

/-- Keeping a session changes what its connection owes, and no other. -/
theorem owes_keepSession {connection other : Nat} {live' : LiveSession}
    (hsessions : process'.sessions = process.sessions) :
    (process'.keepSession connection live').owes other =
      if connection = other then live'.unpublished else process.owes other := by
  unfold owes keepSession
  rw [BTreeMap.getElem?_insert, hsessions]
  split <;> rfl

/-- A connection that has ended owes nothing. -/
theorem owes_endSession {connection other : Nat} :
    (process.endSession connection live).owes other =
      if connection = other then [] else process.owes other := by
  have hsessions : (process.endSession connection live).sessions[other]? =
      if connection = other then none else process.sessions[other]? := BTreeMap.getElem?_erase
  unfold owes
  rw [hsessions]
  split <;> rfl

/-- A connection publishes what it owes, in order, and owes what it has stored. -/
theorem Step.owes (h : Step runtime allowed process seen process')
    (hfresh : process.sessions[process.nextConnectionId]? = none) (connection : Nat) :
    publishedBy connection seen ++ process'.owes connection =
      process.owes connection ++ storedBy connection seen := by
  have hquiet : publishedBy connection seen = [] → storedBy connection seen = [] →
      process'.owes connection = process.owes connection →
      publishedBy connection seen ++ process'.owes connection =
        process.owes connection ++ storedBy connection seen := by
    intro hpublished hstored hsame
    rw [hpublished, hstored, hsame, List.nil_append, List.append_nil]
  have hkept : ∀ {other : Nat} {live live' : LiveSession} {after : RelayProcess σ},
      process.sessions[other]? = some live → after.sessions = process.sessions →
      live'.unpublished = live.unpublished →
      (after.keepSession other live').owes connection = process.owes connection := by
    intro other live live' after hlive hsessions hsame
    rw [owes_keepSession hsessions]
    split
    · next heq => rw [← heq, owes_of_live hlive, hsame]
    · rfl
  have hended : ∀ {other : Nat} {live live' : LiveSession}, process.sessions[other]? = some live →
      live.unpublished = [] →
      (process.endSession other live').owes connection = process.owes connection := by
    intro other live live' hlive hnothing
    rw [owes_endSession]
    split
    · next heq => rw [← heq, owes_of_live hlive, hnothing]
    · rfl
  have hidle : ∀ {live : LiveSession}, live.answering = none → live.unpublished = [] := by
    intro live hidle
    rw [LiveSession.unpublished, hidle]
    rfl
  have hdone : ∀ {live : LiveSession} {replies : List SessionReply},
      live.answering = some ([], replies) → live.unpublished = [] := by
    intro live replies hdone
    rw [LiveSession.unpublished, hdone]
    rfl
  cases h with
  | opens hopens =>
    obtain ⟨opened, _, hanswering, _, rfl⟩ := openSession_eq_some hopens
    refine hquiet rfl rfl ?_
    unfold RelayProcess.owes
    rw [BTreeMap.getElem?_insert]
    split
    · next heq =>
      rw [← heq, hfresh]
      exact hidle hanswering
    · rfl
  | @receives other live _ _ _ answer hlive hnone hanswer _ =>
    have hsessions := (answersFrom_handleIncomingMessage hanswer).streams.sessions
    rw [owes_keepSession hsessions]
    show [] ++ _ = process.owes connection ++
      ((if other = connection then answer.storedOffsets else []) ++ [])
    split
    · next heq =>
      rw [← heq, owes_of_live hlive, hidle hnone, List.append_nil]
      rfl
    · rw [List.append_nil, List.append_nil]
      rfl
  | @publishes other live offset offsets replies hlive hanswering =>
    rw [owes_keepSession rfl, publishedBy_single]
    show _ = _ ++ []
    rw [List.append_nil]
    split
    · next heq =>
      rw [← heq, owes_of_live hlive, LiveSession.unpublished, LiveSession.unpublished, hanswering]
      rfl
    · rfl
  | consumes hlive hnone _ hreplies =>
    exact hquiet rfl rfl (hkept hlive (handleEventOffset_eq hreplies).1.sessions (hidle hnone).symm)
  | lags written hlive hnone _ =>
    refine hquiet ?_ ?_ (hended hlive (hidle hnone)) <;> cases written <;> rfl
  | replies hlive hanswering _ =>
    exact hquiet rfl rfl (hkept hlive rfl (hdone hanswering).symm)
  | repliesClose written hlive hanswering _ =>
    refine hquiet ?_ ?_ (hended hlive (hdone hanswering)) <;> cases written <;> rfl
  | writes hlive hnone _ => exact hquiet rfl rfl (hkept hlive rfl rfl)
  | keepsAlive _ _ _ => exact hquiet rfl rfl rfl
  | @ends _ _ last hlive hnone _ =>
    refine hquiet ?_ ?_ (hended hlive (hidle hnone)) <;> cases last <;> rfl
  | shares _ _ _ => exact hquiet rfl rfl rfl

/-- The next id of a connection is not in use. -/
theorem Tracked.fresh (h : Tracked trace process) :
    process.sessions[process.nextConnectionId]? = none := by
  cases hlive : process.sessions[process.nextConnectionId]? with
  | none => rfl
  | some live => exact absurd (h.before _ (h.opened _ live hlive)) (Nat.lt_irrefl _)

/-- Each connection has published what it has stored, but for what it still owes. -/
theorem Runs.owes (h : Runs runtime allowed start trace process) (connection : Nat) :
    storedBy connection trace = publishedBy connection trace ++ process.owes connection := by
  induction h with
  | started _ => rfl
  | step hrun hstep ih =>
    rw [storedBy_append, publishedBy_append, ih, List.append_assoc, List.append_assoc,
      hstep.owes hrun.tracked.fresh]

/-- The store only grows. -/
theorem Step.grows {base : PocketStore} (h : Step runtime allowed process seen process')
    (hbase : Grows base process.store) : Grows base process'.store := by
  cases h with
  | opens hopens =>
    obtain ⟨_, _, _, _, rfl⟩ := openSession_eq_some hopens
    exact hbase
  | @receives connection live message now faults answer _ _ hanswer _ =>
    have hfrom := answersFrom_handleIncomingMessage hanswer
    show Grows base answer.process.store
    cases hsubmitted : answer.submitted with
    | none =>
      obtain ⟨_, hstore, _⟩ := hfrom.unsubmitted hsubmitted
      rw [hstore]
      exact hbase
    | some submission =>
      obtain ⟨faults, auth, result, hsubmit, _⟩ := hfrom.submitted _ _ hsubmitted
      exact hbase.submitFaulty hsubmit
  | @consumes after connection live offset next replies _ _ _ hreplies =>
    obtain ⟨_, _, hstore⟩ := handleEventOffset_eq hreplies
    show Grows base after.store
    rw [hstore]
    exact hbase
  | publishes _ _ => exact hbase
  | lags _ _ _ _ => exact hbase
  | replies _ _ _ => exact hbase
  | repliesClose _ _ _ _ => exact hbase
  | writes _ _ _ => exact hbase
  | keepsAlive _ _ _ => exact hbase
  | ends _ _ _ => exact hbase
  | shares _ _ _ => exact hbase

/-- Before a connection is opened there was a process too. -/
theorem Runs.opened (h : Runs runtime allowed start trace process) {connection : Nat}
    {earlier later : List Observation} (htrace : trace = earlier ++ .opened connection :: later) :
    ∃ before, Runs runtime allowed start earlier before ∧ Grows before.store process.store := by
  induction h generalizing later with
  | started _ => cases earlier <;> cases htrace
  | @step trace seen process process' hrun hstep ih =>
    have hbelow : ∀ between, trace = earlier ++ .opened connection :: between →
        ∃ before, Runs runtime allowed start earlier before ∧
          Grows before.store process'.store := by
      intro between hbefore
      obtain ⟨before, hearlier, hgrows⟩ := ih hbefore
      exact ⟨before, hearlier, hstep.grows hgrows⟩
    rcases hstep.streamEffect with ⟨_, _, rfl, _⟩ | heffect
    · rcases split_opened htrace with ⟨-, rfl, -⟩ | ⟨between, hbefore, _⟩
      · exact ⟨process, hrun, hstep.grows ⟨[], (List.append_nil _).symm, .nil⟩⟩
      · exact hbelow between hbefore
    · rcases split_seen htrace with ⟨more, _, hseen⟩ | ⟨between, hbefore, _⟩
      · refine absurd ?_ (heffect.notOpened connection)
        rw [hseen]
        exact List.mem_append_right _ (List.mem_cons_self ..)
      · exact hbelow between hbefore

/-- The process has stored and published as one that handles events one after another, which
publishes what it stores at once. -/
theorem Runs.publishes (h : Runs runtime allowed start trace process) :
    runtime.relay.Publishes allowed start (storedIn trace) process.groups process.store := by
  induction h with
  | started hstart => exact .started hstart
  | @step trace seen process process' _ hstep ih =>
    have hkept : storedIn seen = [] → process'.groups = process.groups →
        process'.store = process.store → runtime.relay.Publishes allowed start
          (storedIn (trace ++ seen)) process'.groups process'.store := by
      intro hnothing hgroups hstore
      rw [storedIn_append, hnothing, List.append_nil, hgroups, hstore]
      exact ih
    cases hstep with
    | opens hopens =>
      obtain ⟨_, _, _, _, rfl⟩ := openSession_eq_some hopens
      exact hkept rfl rfl rfl
    | @receives connection live message now faults answer _ _ hanswer hallowed =>
      have hfrom := answersFrom_handleIncomingMessage hanswer
      have hstored : storedIn [.stored connection answer.storedOffsets] = answer.storedOffsets :=
        List.append_nil _
      cases hsubmitted : answer.submitted with
      | none =>
        obtain ⟨hgroups, hstore, hnothing⟩ := hfrom.unsubmitted hsubmitted
        exact hkept (hstored.trans hnothing) hgroups hstore
      | some submission =>
        obtain ⟨event, log⟩ := submission
        obtain ⟨faults, auth, result, hsubmit, hoffsets⟩ := hfrom.submitted event log hsubmitted
        obtain ⟨hfits, hallows⟩ := hallowed event log hsubmitted
        rw [storedIn_append, hstored, hoffsets]
        exact .submitted ih hfits hsubmit hallows
    | consumes _ _ _ hreplies =>
      obtain ⟨_, hgroups, hstore⟩ := handleEventOffset_eq hreplies
      exact hkept rfl hgroups hstore
    | lags written _ _ _ => exact hkept (by cases written <;> rfl) rfl rfl
    | repliesClose written _ _ _ => exact hkept (by cases written <;> rfl) rfl rfl
    | @ends _ _ last _ _ _ => exact hkept (by cases last <;> rfl) rfl rfl
    | publishes _ _ => exact hkept rfl rfl rfl
    | replies _ _ _ => exact hkept rfl rfl rfl
    | writes _ _ _ => exact hkept rfl rfl rfl
    | keepsAlive _ _ _ => exact hkept rfl rfl rfl
    | shares _ _ _ => exact hkept rfl rfl rfl

/-- If nothing is stored twice, nothing is published twice. -/
theorem Runs.nodup_publishedIn (h : Runs runtime allowed start trace process)
    (hnodup : (storedIn trace).Nodup) : (publishedIn trace).Nodup := by
  refine Tangle.nodup_publishedIn (fun connection => ?_) fun one other offset hone hother => ?_
  · have hall := (@storedBy_of_nodup connection trace 0 hnodup).1
    rw [h.owes] at hall
    exact (List.nodup_append.mp hall).1
  · refine (@storedBy_of_nodup one trace offset hnodup).2 other ?_ ?_
    · rw [h.owes]
      exact List.mem_append_left _ hone
    · rw [h.owes]
      exact List.mem_append_left _ hother

/-- What a step is seen to store it has stored, and nothing else. -/
theorem Runs.stores {σ : Type} {runtime : RelaySessionRuntime σ} {start : PocketStore}
    {trace seen : List Observation} {process process' : RelayProcess σ}
    (h : Runs runtime (GoesThrough runtime.relay) start trace process)
    (hstep : Step runtime (GoesThrough runtime.relay) process seen process') :
    ∃ stored, process'.store.events = process.store.events ++ stored ∧
      stored.map StoredEvent.storeOffset = storedIn seen := by
  obtain ⟨before, hbefore, hbeforeOffsets, _⟩ := published_all h.publishes
  obtain ⟨after, hafter, hafterOffsets, _⟩ := published_all (Runs.step h hstep).publishes
  have hsame : Grows process.store process.store := ⟨[], (List.append_nil _).symm, .nil⟩
  obtain ⟨stored, hstored, _⟩ := hstep.grows hsame
  refine ⟨stored, hstored, ?_⟩
  have hparts : after = before ++ stored := by
    rw [hafter, hbefore, List.append_assoc] at hstored
    exact List.append_cancel_left hstored
  rw [hparts, List.map_append, hbeforeOffsets, storedIn_append] at hafterOffsets
  exact List.append_cancel_left hafterOffsets

end RelayProcess

/-- **What is stored is published once.** In a process whose submissions all go through, however its
connections take turns: each step has stored the events that it is seen to store, and these are all
the events stored since the start. The offset of each has been published exactly once, by the
connection that the event came from, or that connection alone is still to publish it; and nothing
else is published. -/
theorem published_once {σ : Type} {runtime : RelaySessionRuntime σ} {start : PocketStore}
    {trace : List Observation} {process : RelayProcess σ}
    (h : RelayProcess.Runs runtime (GoesThrough runtime.relay) start trace process) :
    (∀ earlier seen later before after, trace = earlier ++ seen ++ later →
        RelayProcess.Runs runtime (GoesThrough runtime.relay) start earlier before →
        RelayProcess.Step runtime (GoesThrough runtime.relay) before seen after →
        ∃ stored, after.store.events = before.store.events ++ stored ∧
          stored.map StoredEvent.storeOffset = storedIn seen) ∧
      (∃ items, process.store.events = start.events ++ items ∧
        ∀ offset, offset ∈ items.map StoredEvent.storeOffset ↔
          ∃ connection, offset ∈ storedBy connection trace) ∧
      (∀ connection offset, offset ∈ storedBy connection trace →
        (offset ∈ publishedBy connection trace ∧ (publishedIn trace).count offset = 1 ∧
            ∀ other, offset ∉ process.owes other) ∨
          (offset ∉ publishedIn trace ∧
            ∀ other, offset ∈ process.owes other ↔ other = connection)) ∧
      ∀ connection offset, offset ∈ publishedBy connection trace →
        offset ∈ storedBy connection trace := by
  obtain ⟨items, hevents, hoffsets, hnodup⟩ := published_all h.publishes
  have hstored : ∀ connection, storedBy connection trace =
      publishedBy connection trace ++ process.owes connection := h.owes
  have hpublished : ∀ {connection offset}, offset ∈ publishedBy connection trace →
      offset ∈ storedBy connection trace := by
    intro connection offset hmem
    rw [hstored]
    exact List.mem_append_left _ hmem
  have howed : ∀ {connection offset}, offset ∈ process.owes connection →
      offset ∈ storedBy connection trace := by
    intro connection offset hmem
    rw [hstored]
    exact List.mem_append_right _ hmem
  have hsame : ∀ {connection other offset}, offset ∈ storedBy connection trace →
      offset ∈ storedBy other trace → connection = other :=
    fun hmine htheirs => (storedBy_of_nodup hnodup).2 _ hmine htheirs
  -- a connection does not still owe what it has published
  have hdone : ∀ {connection other offset}, offset ∈ publishedBy connection trace →
      offset ∉ process.owes other := by
    intro connection other offset hmine howes
    obtain rfl := hsame (hpublished hmine) (howed howes)
    have hone := (@storedBy_of_nodup connection trace offset hnodup).1
    rw [hstored] at hone
    exact (List.nodup_append.mp hone).2.2 offset hmine offset howes rfl
  refine ⟨fun _ _ _ _ _ _ hbefore hstep => hbefore.stores hstep, ⟨items, hevents, ?_⟩, ?_,
    fun _ _ => hpublished⟩
  · intro offset
    rw [hoffsets, mem_storedIn]
  · intro connection offset hmine
    have hparts := hmine
    rw [hstored] at hparts
    rcases List.mem_append.mp hparts with hmem | howes
    · refine .inl ⟨hmem, ?_, fun _ => hdone hmem⟩
      exact List.count_eq_one_of_mem (h.nodup_publishedIn hnodup) (mem_publishedIn.mpr ⟨_, hmem⟩)
    · refine .inr ⟨fun hmem => ?_, fun other => ⟨fun hother => ?_, ?_⟩⟩
      · obtain ⟨other, hother⟩ := mem_publishedIn.mp hmem
        exact hdone hother howes
      · exact hsame (howed hother) hmine
      · rintro rfl
        exact howes

open Sample in
/-- Each note is published once, by the visitor who has posted it. -/
theorem published_once_visit : ∃ trace process,
    RelayProcess.Runs liveRuntime (GoesThrough liveRuntime.relay) .empty trace process ∧
      storedBy 0 trace = [152] ∧ storedBy 1 trace = [8] ∧
      ∀ connection offset, offset ∈ storedBy connection trace →
        (offset ∈ publishedBy connection trace ∧ (publishedIn trace).count offset = 1 ∧
            ∀ other, offset ∉ process.owes other) ∨
          (offset ∉ publishedIn trace ∧
            ∀ other, offset ∈ process.owes other ↔ other = connection) := by
  have htaken : (takenFrom visit).any (fun taken =>
      decide (storedBy 0 taken.1 = [152] ∧ storedBy 1 taken.1 = [8])) = true := by
    decide +kernel
  obtain ⟨trace, process, hruns, hzero, hone⟩ := runs_of_takenFrom htaken
  obtain ⟨-, -, honce, -⟩ := published_once hruns
  exact ⟨trace, process, hruns, hzero, hone, honce⟩

end Tangle
