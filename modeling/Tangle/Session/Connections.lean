import Tangle.Host.Backup
import Tangle.Lib.Channels
import Tangle.Runtime.Broadcasts
import Tangle.Session.ClientMessages
import Tangle.Session.EventLimits
import Tangle.Session.Sessions

/-!
# Connections

A connection has a queue of messages for its client and a receiver on the event bus. Its loop takes
one thing at a time: a message of the client, the next offset that was published, or the next
message of the queue to write. What it answers goes into the queue; when the queue is full, or the
bus has overtaken the receiver, the connection is closed.

The connections of a process run at once. One that has stored events publishes their offsets one
after another, and in between the others go on (`RelayProcess.Step`).
-/

namespace Tangle

/-! ## Messages -/

/-- The code and the reason of a closing frame. -/
structure CloseFrame where
  code : Nat
  reason : String
deriving DecidableEq

/-- What goes over a websocket. -/
inductive WsMessage where
  | text (text : Text)
  | binary (bytes : List UInt8)
  | ping (payload : List UInt8)
  | pong (payload : List UInt8)
  | close (frame : Option CloseFrame)
deriving DecidableEq

/-- `EVENT_STREAM_LAG_CLOSE_MESSAGE`, as a frame. -/
def eventStreamLagCloseMessage : WsMessage :=
  .close (some ⟨1008, "event stream lagged; reconnect required"⟩)

/-- `OUTBOUND_QUEUE_FULL_CLOSE_MESSAGE`, as a frame. -/
def outboundQueueFullCloseMessage : WsMessage :=
  .close (some ⟨1013, "outbound queue full; reconnect required"⟩)

/-- `OUTBOUND_ENCODE_CLOSE_MESSAGE`, as a frame. -/
def outboundEncodeCloseMessage : WsMessage :=
  .close (some ⟨1011, "outbound relay message encode failed"⟩)

def keepaliveTimeoutCloseMessage : WsMessage :=
  .close (some ⟨1001, "websocket peer timeout"⟩)

/-- A message that carries no event, with those that only connections send. -/
inductive ProtocolMessage where
  | relay (message : RelayMessage)
  | notice (message : String)
  | negErr (subscriptionId : SubscriptionId) (message : String)
deriving DecidableEq

/-- `relay_message_to_value`. -/
def ProtocolMessage.toValue : ProtocolMessage → JsonValue
  | .relay (.ok eventId accepted message) =>
    .array [.string "OK".toList, .string eventId.text, .bool accepted, .string message.toList]
  | .relay (.eose subscriptionId) => .texts ["EOSE".toList, subscriptionId.text]
  | .relay (.closed subscriptionId message) =>
    .texts ["CLOSED".toList, subscriptionId.text, message.toList]
  | .relay (.count subscriptionId count hll) =>
    let payload := ("count".toList, JsonValue.unsigned (.ofNat count)) ::
      hll.toList.map fun hll => ("hll".toList, .string hll.toList)
    .array [.string "COUNT".toList, .string subscriptionId.text, .object payload]
  | .relay (.auth challenge) => .texts ["AUTH".toList, challenge]
  | .notice message => .texts ["NOTICE".toList, message.toList]
  | .negErr subscriptionId message =>
    .texts ["NEG-ERR".toList, subscriptionId.text, message.toList]

/-- What a connection answers with (`RuntimeRelayMessage`). -/
inductive SessionReply where
  | event (subscriptionId : SubscriptionId) (event : PocketEvent)
  | protocol (message : ProtocolMessage)
deriving DecidableEq

/-- A message of the relay as a reply of the session. -/
def SessionReply.ofRuntime : RuntimeRelayMessage → SessionReply
  | .event subscriptionId carried => .event subscriptionId carried
  | .relay message => .protocol (.relay message)

/-- A NOTICE with that text. -/
def SessionReply.notice (message : String) : SessionReply :=
  .protocol (.notice message)

/-- What the connections of a process run on: besides what client messages run on, the hooks for
deliveries, what is asked of Pocket and of the JSON library, and the limits of connections. -/
structure RelaySessionRuntime (σ : Type) extends RelayRuntimeShared σ where
  deliveryHooks : RelayRuntimeHooks σ
  query : PocketQueryConfig
  completes : PocketFilter → Bool
  parsers : ClientParsers
  /-- `Event::as_json`. -/
  asJson : PocketEvent → Except String (List UInt8)
  sanitizePublicMessage : ProtocolMessage → ProtocolMessage
  maxMessageLength : Nat
  outboundQueueCapacity : Nat
  maxPendingEvents : Nat
  maxSubscriptions : Nat

namespace RelaySessionRuntime

variable {σ : Type} (runtime : RelaySessionRuntime σ)

/-- `encode_pocket_event_message`: the subscription's id and the event's JSON in the list that a
client reads. -/
def encodePocketEventMessage (subscriptionId : SubscriptionId) (event : PocketEvent) :
    Except BaseRelayError Text := do
  let subscription := runtime.parsers.json.toText (.string subscriptionId.text)
  let eventJson ← (runtime.asJson event).mapError fun error =>
    BaseRelayError.error s!"outbound Pocket event encode failed: {error}"
  let error := runtime.reads.utf8Error eventJson
  let eventJson ← Except.okOr (Text.ofBytes? eventJson)
    (BaseRelayError.error s!"outbound Pocket event JSON is not UTF-8: {error}")
  return "[\"EVENT\",".toList ++ subscription ++ [','] ++ eventJson ++ [']']

/-- The text of a reply, once the hook has made it public. -/
def encode : SessionReply → Except BaseRelayError Text
  | .event subscriptionId event => runtime.encodePocketEventMessage subscriptionId event
  | .protocol message =>
    .ok (runtime.parsers.json.toText (runtime.sanitizePublicMessage message).toValue)

end RelaySessionRuntime

/-! ## Connections -/

/-- What a connection does after a turn. -/
inductive TangleSessionControl where
  | «continue»
  | close (message : WsMessage)
  | stop
deriving DecidableEq

/-- The session of a connection, with its queue and its place on the event bus. While it answers, it
has offsets to publish and then replies to put into the queue. -/
structure LiveSession where
  session : TangleWebSocketSession
  auth : BaseAuthState
  outbound : BoundedQueue WsMessage
  nextEvent : Nat
  answering : Option (List StoreOffset × List SessionReply)

namespace LiveSession

variable {σ : Type} (runtime : RelaySessionRuntime σ)

/-- `group_auth`: the keys authenticated on the connection. -/
def groupAuth (live : LiveSession) : GroupAuthContext :=
  ⟨live.auth.authenticatedPubkeys⟩

/-- Puts a reply into the queue. -/
def enqueueRelayMessage (outbound : BoundedQueue WsMessage) (reply : SessionReply) :
    Except TangleSessionControl (BoundedQueue WsMessage) := do
  let text ← (runtime.encode reply).mapError fun _ =>
    TangleSessionControl.close outboundEncodeCloseMessage
  Except.okOr (outbound.trySend (.text text)) (.close outboundQueueFullCloseMessage)

/-- Puts one reply after another into the queue. -/
def enqueueRelayMessages (outbound : BoundedQueue WsMessage) :
    List SessionReply → TangleSessionControl × BoundedQueue WsMessage
  | [] => (.continue, outbound)
  | reply :: rest =>
    match enqueueRelayMessage runtime outbound reply with
    | .error control => (control, outbound)
    | .ok outbound => enqueueRelayMessages outbound rest

end LiveSession

/-! ## Processes -/

/-- A relay that runs, with its connections. -/
structure RelayProcess (σ : Type) where
  groups : Option GroupServiceState
  store : PocketStore
  eventBus : Broadcast StoreOffset
  rateLimiter : TangleRateLimiter
  resources : RelayResourceLimiter
  hooks : σ
  nextConnectionId : Nat
  sessions : BTreeMap Nat LiveSession

/-- What a client's message is answered with, and what it leaves; if it was an event for the relay,
also the event and what the store was asked. -/
structure SessionAnswer (σ : Type) where
  replies : Except BaseRelayError (List SessionReply)
  storedOffsets : List StoreOffset
  submitted : Option (PocketEvent × List StoreExchange)
  process : RelayProcess σ
  live : LiveSession

namespace RelayProcess

variable {σ : Type} (runtime : RelaySessionRuntime σ) (process : RelayProcess σ)
  (live : LiveSession)

/-- An answer that changes nothing. -/
def answered (replies : Except BaseRelayError (List SessionReply)) : SessionAnswer σ :=
  ⟨replies, [], none, process, live⟩

/-- One message of the relay as the replies of a call that cannot fail. -/
def relayReply (message : RelayMessage) : Except BaseRelayError (List SessionReply) :=
  .ok [.protocol (.relay message)]

/-! ### Events -/

/-- Hands an event to the relay, whose store may fail. -/
def handlePocketEvent (event : PocketEvent) (faults : List (Option StoreFault)) : SessionAnswer σ :=
  match runtime.relay.submitFaulty faults event live.groupAuth process.groups process.store with
  | (result, groups, store, log) =>
    { replies := result.map fun write => [.protocol (.relay write.message.toRelayMessage)]
      storedOffsets := publishedOffsets result
      submitted := some (event, log)
      process := { process with groups, store }
      live }

/-- What follows the limits of an event: the embedder admits it to the relay, or answers why not. -/
def admitPocketEvent (event : PocketEvent) (eventContext : RelayEventContext)
    (now : UnixTimestamp) (faults : List (Option StoreFault)) : SessionAnswer σ :=
  let context := live.session.clientRateLimitContext
  match (runtime.admitEvent ⟨eventContext, live.auth.authenticatedPubkeys.toList, context.peerIp,
    context.connectionId, now⟩).run process.hooks with
  | (.reject message, hooks) => { process with hooks }.answered live
      (relayReply (.ok event.id false (BaseRelayError.restricted message).prefixedMessage))
  | (.accept, hooks) => { process with hooks }.handlePocketEvent runtime live event faults

/-- `handle_event`: the limits of any event, those of a write to a group, and then its admission. -/
def handleEvent (event : PocketEvent) (now : UnixTimestamp) (faults : List (Option StoreFault)) :
    SessionAnswer σ :=
  let context := live.session.clientRateLimitContext
  match RelayEventContext.fromPocketEvent runtime.reads event with
  | .error error => process.answered live (.error error)
  | .ok eventContext =>
    match (rateLimitEventPocket runtime.rateLimits event context now).run process.rateLimiter with
    | (some rejection, rateLimiter) =>
      { process with rateLimiter }.answered live (relayReply rejection.toMessage)
    | (none, rateLimiter) =>
      match (rateLimitGroupWritePocket runtime.rateLimits event context now
        runtime.toRelayRuntimeShared.groups).run rateLimiter with
      | (some rejection, rateLimiter) =>
        { process with rateLimiter }.answered live (relayReply rejection.toMessage)
      | (none, rateLimiter) =>
        { process with rateLimiter }.admitPocketEvent runtime live event eventContext now faults

/-! ### Authentications -/

/-- The answer to a client as the replies that it is sent. -/
def ClientAnswer.toReplies : ClientAnswer → Except BaseRelayError (List SessionReply)
  | .rateLimited rejection => relayReply rejection.toMessage
  | .replies replies => replies.map fun messages => messages.map fun message =>
      .protocol (.relay message)
  | .request => .ok []

/-- `handle_auth`, over the world that the connection shares with the others. -/
def handleAuth (event : PocketEvent) (now : UnixTimestamp) : SessionAnswer σ :=
  let world : RuntimeWorld σ := ⟨process.rateLimiter, process.groups, process.store,
    fun _ => live.auth, process.hooks⟩
  let (answer, world) := world.handleAuth runtime.toRelayRuntimeShared event
    live.session.connectionId live.session.clientRateLimitContext now
  { replies := ClientAnswer.toReplies answer
    storedOffsets := []
    submitted := none
    process := { process with rateLimiter := world.rateLimiter }
    live := { live with auth := world.auths live.session.connectionId } }

/-! ### Requests -/

/-- What requests are answered from now. -/
def handle : RelayRuntimeHandle σ where
  reads := runtime.reads
  events := process.store.events
  groups := process.groups
  limits := runtime.requestLimits
  query := runtime.query
  hooks := runtime.deliveryHooks
  completes := runtime.completes
  reqRateLimits := runtime.rateLimits.req

/-- The connection with what it shares with the others. -/
def sessionWorld : SessionWorld σ where
  session := { live.session with auth := live.groupAuth }
  resources := process.resources
  rateLimiter := process.rateLimiter
  hooks := process.hooks

/-- Takes over what a message about subscriptions leaves. -/
def ofSessionWorld (replies : Replies) (world : SessionWorld σ) : SessionAnswer σ where
  replies := replies.map fun messages => messages.map SessionReply.ofRuntime
  storedOffsets := []
  submitted := none
  process := { process with
    resources := world.resources
    rateLimiter := world.rateLimiter
    hooks := world.hooks }
  live := { live with session := world.session }

/-- `handle_req` and `handle_close`, over the subscriptions of the connection. -/
def handleSubscription (message : SubscriptionMessage) (now : UnixTimestamp) : SessionAnswer σ :=
  let (replies, world) := (process.sessionWorld live).handleClientMessage (process.handle runtime)
    now message
  process.ofSessionWorld live replies world

/-- `handle_count`: a request that is broad is answered before the limits count it. -/
def handleCount (subscriptionId : SubscriptionId) (filters : List PocketFilter)
    (searchPresent : Bool) (now : UnixTimestamp) : SessionAnswer σ :=
  let validated : Except BaseRelayError Unit := do
    runtime.requestLimits.validateSubscriptionId subscriptionId
    runtime.requestLimits.validatePocketFilters filters
  match validated with
  | .error error => process.answered live (.error error)
  | .ok () =>
    match BaseRelay.unsupportedSearchPresentClosed subscriptionId searchPresent with
    | some message => process.answered live (relayReply message)
    | none =>
      let classification :=
        runtime.requestLimits.classifyPocketCount runtime.reads.hyperloglogOffset filters
      if classification.isBroad then
        process.answered live (relayReply (.closed subscriptionId
          (BaseRelayError.restricted "count filters are too broad or expensive").prefixedMessage))
      else
        match (rateLimitAll subscriptionId "count" now (queryRateLimitKeys .count
          runtime.rateLimits.count filters live.groupAuth live.session.clientRateLimitContext
          classification)).run process.rateLimiter with
        | (some message, rateLimiter) =>
          { process with rateLimiter }.answered live (relayReply message)
        | (none, rateLimiter) =>
          let report := (process.handle runtime).handleCountWithGroupAuth subscriptionId filters
            searchPresent live.groupAuth
          { process with rateLimiter }.answered live
            (report.map fun (report : BaseRelayCountReport) => [.protocol (.relay report.message)])

/-- Negentropy is answered as disabled. -/
def handleNegentropy (subscriptionId : SubscriptionId) (replies : List SessionReply) :
    SessionAnswer σ :=
  process.answered live (do
    runtime.requestLimits.validateSubscriptionId subscriptionId
    return replies)

/-- `disabled_negentropy_message`. -/
def disabledNegentropyMessage (subscriptionId : SubscriptionId) : SessionReply :=
  .protocol (.negErr subscriptionId "blocked: Negentropy sync is disabled")

/-! ### Messages of clients -/

/-- `handle_client_message`: each message by its kind, the negentropy ones refused. -/
def handleClientMessage (message : ParsedClientMessage) (now : UnixTimestamp)
    (faults : List (Option StoreFault)) : SessionAnswer σ :=
  match message with
  | .event event => process.handleEvent runtime live event now faults
  | .auth event => process.handleAuth runtime live event now
  | .req subscriptionId filters searchPresent =>
    process.handleSubscription runtime live (.req ⟨subscriptionId, filters, searchPresent⟩) now
  | .count subscriptionId filters searchPresent =>
    process.handleCount runtime live subscriptionId filters searchPresent now
  | .close subscriptionId => process.handleSubscription runtime live (.close subscriptionId) now
  | .negOpen subscriptionId _ _ =>
    process.handleNegentropy runtime live subscriptionId [disabledNegentropyMessage subscriptionId]
  | .negMsg subscriptionId _ =>
    process.handleNegentropy runtime live subscriptionId [disabledNegentropyMessage subscriptionId]
  | .negClose subscriptionId => process.handleNegentropy runtime live subscriptionId []

/-- What a connection puts into its queue for an answer. -/
def repliesOf : Except BaseRelayError (List SessionReply) → List SessionReply
  | .ok replies => replies
  | .error error => [.notice error.prefixedMessage]

/-- Answers the text of a client. -/
def dispatchText (raw : Text) (now : UnixTimestamp) (faults : List (Option StoreFault)) :
    SessionAnswer σ :=
  if raw.byteLen > runtime.maxMessageLength then
    let max := runtime.maxMessageLength
    process.answered live (.ok [.notice
      s!"invalid: client message length exceeds runtime max_message_length {max}"])
  else
    match runtime.parsers.parseRuntimeClientMessage raw with
    | .error error => process.answered live (.ok [.notice s!"invalid: {error}"])
    | .ok message => process.handleClientMessage runtime live message now faults

/-- Answers a message other than a ping, a pong or a close. -/
def handleIncomingMessage (message : WsMessage) (now : UnixTimestamp)
    (faults : List (Option StoreFault)) : Option (SessionAnswer σ) :=
  match message with
  | .text raw => some (process.dispatchText runtime live raw now faults)
  | .binary _ => some (process.answered live
      (.ok [.notice "invalid: client message must be a text frame"]))
  | .ping _ | .pong _ | .close _ => none

/-- What is sent for a published offset (`handle_event_offset`). A search that fails leaves the
hooks as they were. -/
def handleEventOffset (offset : StoreOffset) : List SessionReply × RelayProcess σ :=
  match ((process.handle runtime).fanoutEventOffsetWithProjectionContext offset
    live.session.subscriptions live.groupAuth live.session.projection).run process.hooks with
  | .ok (messages, hooks) => (messages.map SessionReply.ofRuntime, { process with hooks })
  | .error error => ([.notice error.prefixedMessage], process)

/-! ### Connections that open and end -/

/-- The first message of a connection (`issue_auth_challenge`), for a challenge that was drawn. -/
def issueAuthChallenge (auth : BaseAuthState) (challenge : Except BaseRelayError Text)
    (now : UnixTimestamp) : SessionReply × BaseAuthState :=
  match challenge with
  | .error error => (.notice error.prefixedMessage, auth)
  | .ok challenge =>
    match auth.issueChallenge challenge now with
    | (.ok message, auth) => (.protocol (.relay message), auth)
    | (.error error, auth) => (.notice error.prefixedMessage, auth)

/-- What a connection is opened with. -/
structure SessionOptions where
  peerIp : Option IpAddr
  resourceLimited : Bool
  projection : RelayProjectionContext
  auth : BaseAuthState
  challenge : Except BaseRelayError Text
  now : UnixTimestamp

/-- Opens a connection: its receiver stands behind what has been published, and its queue holds the
challenge. -/
def openSession (options : SessionOptions) : Option (SessionReply × RelayProcess σ) := do
  let subscriptions ←
    (LiveSubscriptionSet.new runtime.maxPendingEvents runtime.maxSubscriptions).toOption
  let (message, auth) := issueAuthChallenge options.auth options.challenge options.now
  let outbound ← (LiveSession.enqueueRelayMessage runtime
    (.new runtime.outboundQueueCapacity) message).toOption
  let session : TangleWebSocketSession :=
    { connectionId := process.nextConnectionId
      peerIp := options.peerIp
      limits := runtime.requestLimits
      auth := ⟨auth.authenticatedPubkeys⟩
      subscriptions
      resourceLimited := options.resourceLimited
      subscriptionPermits := ∅
      projection := options.projection }
  let opened : LiveSession := ⟨session, auth, outbound, process.eventBus.sent, none⟩
  return (message, { process with
    nextConnectionId := process.nextConnectionId + 1
    sessions := process.sessions.insert process.nextConnectionId opened })

/-- Keeps what a connection has become. -/
def keepSession (connection : Nat) (live : LiveSession) : RelayProcess σ :=
  { process with sessions := process.sessions.insert connection live }

/-- Ends a connection; what it held of the host is given back. -/
def endSession (connection : Nat) (live : LiveSession) : RelayProcess σ :=
  { process with
    resources := (process.sessionWorld live).closeAllSubscriptions.2.resources
    sessions := process.sessions.erase connection }

end RelayProcess

/-! ## Runs -/

/-- What is seen of a process. -/
inductive Observation where
  | opened (connection : Nat)
  | stored (connection : Nat) (offsets : List StoreOffset)
  | published (connection : Nat) (offset : StoreOffset)
  | consumed (connection : Nat) (offset : StoreOffset)
  | answered (connection : Nat) (replies : List SessionReply)
  | wrote (connection : Nat) (message : WsMessage)
  | ended (connection : Nat)
deriving DecidableEq

/-- What stands in a trace that has gone on is new, or it stood there before. -/
theorem split_seen {trace seen earlier later : List Observation} {observation : Observation}
    (h : trace ++ seen = earlier ++ observation :: later) :
    (∃ more, earlier = trace ++ more ∧ seen = more ++ observation :: later) ∨
      ∃ between, trace = earlier ++ observation :: between ∧ later = between ++ seen := by
  rcases List.append_eq_append_iff.mp h with ⟨more, hearlier, hseen⟩ | ⟨more, htrace, hlater⟩
  · exact .inl ⟨more, hearlier, hseen⟩
  · cases more with
    | nil =>
      rw [List.append_nil] at htrace
      exact .inl ⟨[], by rw [htrace, List.append_nil], hlater.symm⟩
    | cons first between =>
      obtain ⟨rfl, hrest⟩ := List.cons.inj hlater
      exact .inr ⟨between, htrace, hrest⟩

/-- Where one connection has been opened and answered since, the opening of a connection in the
whole trace is this one, or it stood there before. -/
theorem split_opened {trace earlier later : List Observation} {connection opened : Nat}
    {replies : List SessionReply}
    (h : trace ++ [.opened opened, .answered opened replies] =
      earlier ++ .opened connection :: later) :
    (opened = connection ∧ earlier = trace ∧ later = [.answered opened replies]) ∨
      ∃ between, trace = earlier ++ .opened connection :: between ∧
        later = between ++ [.opened opened, .answered opened replies] := by
  refine (split_seen h).imp_left ?_
  rintro ⟨more, hearlier, hseen⟩
  cases more with
  | nil =>
    cases hseen
    exact ⟨rfl, hearlier.trans (List.append_nil _), rfl⟩
  | cons first more =>
    obtain ⟨rfl, hrest⟩ := List.cons.inj hseen
    have hmem : Observation.opened connection ∈ [Observation.answered opened replies] := by
      rw [hrest]
      exact List.mem_append_right _ (List.mem_cons_self ..)
    cases List.mem_singleton.mp hmem

namespace RelayProcess

variable {σ : Type} (runtime : RelaySessionRuntime σ)
  (allowed : Option GroupServiceState → PocketStore → PocketEvent →
    List StoreExchange → Prop)

/-- A step of one connection, or of what the connections share. What it has stored a connection
publishes, and what it answers it puts into its queue, before it takes anything else. A submitted
event exists in Pocket's format, whose tag section is bounded. -/
inductive Step : RelayProcess σ → List Observation → RelayProcess σ → Prop
  | opens {process process' : RelayProcess σ} {options : SessionOptions} {message : SessionReply} :
      process.openSession runtime options = some (message, process') →
      Step process [.opened process.nextConnectionId, .answered process.nextConnectionId [message]]
        process'
  | receives {process : RelayProcess σ} {connection : Nat} {live : LiveSession}
      {message : WsMessage} {now : UnixTimestamp} {faults : List (Option StoreFault)}
      {answer : SessionAnswer σ} :
      process.sessions[connection]? = some live → live.answering = none →
      process.handleIncomingMessage runtime live message now faults = some answer →
      (∀ event log, answer.submitted = some (event, log) → event.Fits runtime.relay.codec ∧
        allowed process.groups process.store event log) →
      Step process [.stored connection answer.storedOffsets]
        (answer.process.keepSession connection { answer.live with
          answering := some (answer.storedOffsets, repliesOf answer.replies) })
  | publishes {process : RelayProcess σ} {connection : Nat} {live : LiveSession}
      {offset : StoreOffset} {offsets : List StoreOffset} {replies : List SessionReply} :
      process.sessions[connection]? = some live →
      live.answering = some (offset :: offsets, replies) →
      Step process [.published connection offset]
        ({ process with eventBus := process.eventBus.send offset }.keepSession connection
          { live with answering := some (offsets, replies) })
  | consumes {process process' : RelayProcess σ} {connection : Nat} {live : LiveSession}
      {offset : StoreOffset} {next : Nat} {replies : List SessionReply} :
      process.sessions[connection]? = some live → live.answering = none →
      process.eventBus.recv live.nextEvent = (.value offset, next) →
      process.handleEventOffset runtime live offset = (replies, process') →
      Step process [.consumed connection offset]
        (process'.keepSession connection
          { live with nextEvent := next, answering := some ([], replies) })
  /-- A connection that has been overtaken is closed. -/
  | lags {process : RelayProcess σ} {connection : Nat} {live : LiveSession} {skipped next : Nat}
      (written : Bool) :
      process.sessions[connection]? = some live → live.answering = none →
      process.eventBus.recv live.nextEvent = (.lagged skipped, next) →
      Step process ((if written then [.wrote connection eventStreamLagCloseMessage] else []) ++
        [.ended connection]) (process.endSession connection live)
  | replies {process : RelayProcess σ} {connection : Nat} {live : LiveSession}
      {replies : List SessionReply} {outbound : BoundedQueue WsMessage} :
      process.sessions[connection]? = some live → live.answering = some ([], replies) →
      LiveSession.enqueueRelayMessages runtime live.outbound replies = (.continue, outbound) →
      Step process [.answered connection replies]
        (process.keepSession connection { live with outbound, answering := none })
  /-- A connection whose replies do not go into its queue is closed. -/
  | repliesClose {process : RelayProcess σ} {connection : Nat} {live : LiveSession}
      {replies : List SessionReply} {message : WsMessage} {outbound : BoundedQueue WsMessage}
      (written : Bool) :
      process.sessions[connection]? = some live → live.answering = some ([], replies) →
      LiveSession.enqueueRelayMessages runtime live.outbound replies = (.close message, outbound) →
      Step process ([.answered connection replies] ++
        (if written then [.wrote connection message] else []) ++ [.ended connection])
        (process.endSession connection live)
  | writes {process : RelayProcess σ} {connection : Nat} {live : LiveSession}
      {message : WsMessage} {outbound : BoundedQueue WsMessage} :
      process.sessions[connection]? = some live → live.answering = none →
      live.outbound.recv? = some (message, outbound) →
      Step process [.wrote connection message]
        (process.keepSession connection { live with outbound })
  /-- A ping, or the answer to one. -/
  | keepsAlive {process : RelayProcess σ} {connection : Nat} {live : LiveSession}
      {message : WsMessage} :
      process.sessions[connection]? = some live → live.answering = none →
      (∃ payload, message = .ping payload ∨ message = .pong payload) →
      Step process [.wrote connection message] process
  /-- The client is gone or nothing can be written, or the process shuts down, or the client has
  been silent for too long. -/
  | ends {process : RelayProcess σ} {connection : Nat} {live : LiveSession}
      {last : Option WsMessage} :
      process.sessions[connection]? = some live → live.answering = none →
      (∀ message ∈ last, message = .close none ∨ message = keepaliveTimeoutCloseMessage) →
      Step process ((last.toList.map fun message => .wrote connection message) ++
        [.ended connection]) (process.endSession connection live)
  /-- What else changes what the connections share. -/
  | shares {process : RelayProcess σ} (rateLimiter : TangleRateLimiter)
      (resources : RelayResourceLimiter) (hooks : σ) :
      Step process [] { process with rateLimiter, resources, hooks }

/-- What has been seen of a process since its start, and where it is. -/
inductive Runs (start : PocketStore) : List Observation → RelayProcess σ → Prop
  | started {before : PocketStore} {config : GroupRuntimeConfig} {now : UnixTimestamp}
      {groups : Option GroupServiceState} {slots : Nat} {hslots : 0 < slots}
      {rateLimiter : TangleRateLimiter} {resources : RelayResourceLimiter} {hooks : σ}
      {nextConnectionId : Nat} :
      runtime.relay.Step (.down before) (.started config now) (.up groups start) →
      Runs start [] ⟨groups, start, .new slots hslots, rateLimiter, resources, hooks,
        nextConnectionId, ∅⟩
  | step {trace seen : List Observation} {process process' : RelayProcess σ} :
      Runs start trace process → Step runtime allowed process seen process' →
      Runs start (trace ++ seen) process'

/-- What has been seen of a process since it was somewhere, and where it is. -/
inductive Continues (first : RelayProcess σ) : List Observation → RelayProcess σ → Prop
  | here : Continues first [] first
  | step {trace seen : List Observation} {process process' : RelayProcess σ} :
      Continues first trace process → Step runtime allowed process seen process' →
      Continues first (trace ++ seen) process'

section
variable {runtime : RelaySessionRuntime σ} {allowed : Option GroupServiceState → PocketStore →
    PocketEvent → List StoreExchange → Prop} {start : PocketStore}
  {first middle process : RelayProcess σ} {trace seen earlier later : List Observation}

/-- A run that goes on is a run. -/
theorem Runs.continues (h : Runs runtime allowed start trace first)
    (hmore : Continues runtime allowed first seen process) :
    Runs runtime allowed start (trace ++ seen) process := by
  induction hmore with
  | here =>
    rw [List.append_nil]
    exact h
  | step _ hstep ih =>
    rw [← List.append_assoc]
    exact .step ih hstep

/-- What goes on, and then goes on further, goes on. -/
theorem Continues.trans (h : Continues runtime allowed first trace middle)
    (hmore : Continues runtime allowed middle seen process) :
    Continues runtime allowed first (trace ++ seen) process := by
  induction hmore with
  | here =>
    rw [List.append_nil]
    exact h
  | step _ hstep ih =>
    rw [← List.append_assoc]
    exact .step ih hstep

/-- A run goes on from a process that has just started. -/
theorem Runs.continued (h : Runs runtime allowed start trace process) :
    ∃ first, Runs runtime allowed start
      [] first ∧ Continues runtime allowed first trace process := by
  induction h with
  | started hstart => exact ⟨_, .started hstart, .here⟩
  | step _ hstep ih =>
    obtain ⟨first, hfirst, hmore⟩ := ih
    exact ⟨first, hfirst, .step hmore hstep⟩

/-- What is seen was seen in some step, on the way to which and from which the process went on. -/
theorem Continues.cut {observation : Observation}
    (h : Continues runtime allowed first trace process)
    (htrace : trace = earlier ++ observation :: later) :
    ∃ sofar pre post rest before after, earlier = sofar ++ pre ∧ later = post ++ rest ∧
      Continues runtime allowed first sofar before ∧
      Step runtime allowed before (pre ++ observation :: post) after ∧
      Continues runtime allowed after rest process := by
  induction h generalizing later with
  | here => cases earlier <;> cases htrace
  | @step trace seen process process' hmore hstep ih =>
    rcases split_seen htrace with ⟨pre, rfl, rfl⟩ | ⟨between, hbefore, rfl⟩
    · exact ⟨trace, pre, later, [], process, process', rfl, (List.append_nil _).symm, hmore, hstep,
        .here⟩
    · obtain ⟨sofar, pre, post, rest, before, after, hearlier, rfl, hsofar, hcut, hrest⟩ :=
        ih hbefore
      exact ⟨sofar, pre, post, rest ++ seen, before, after, hearlier, List.append_assoc .., hsofar,
        hcut, .step hrest hstep⟩

/-- What is seen of a run was seen in some step of it. -/
theorem Runs.cut {observation : Observation} (h : Runs runtime allowed start trace process)
    (htrace : trace = earlier ++ observation :: later) :
    ∃ sofar pre post rest before after, earlier = sofar ++ pre ∧ later = post ++ rest ∧
      Runs runtime allowed start sofar before ∧
      Step runtime allowed before (pre ++ observation :: post) after ∧
      Continues runtime allowed after rest process := by
  obtain ⟨first, hfirst, hmore⟩ := h.continued
  obtain ⟨sofar, pre, post, rest, before, after, hearlier, hlater, hsofar, hcut, hrest⟩ :=
    hmore.cut htrace
  exact ⟨sofar, pre, post, rest, before, after, hearlier, hlater, hfirst.continues hsofar, hcut,
    hrest⟩

end

/-! ## Turns -/

/-- A choice of what happens next. -/
inductive Turn where
  | opens (options : SessionOptions)
  | receives (connection : Nat) (message : WsMessage) (now : UnixTimestamp)
      (faults : List (Option StoreFault))
  | publishes (connection : Nat)
  | consumes (connection : Nat)
  | replies (connection : Nat) (written : Bool)
  | writes (connection : Nat)

variable (permits : Option GroupServiceState → PocketStore → PocketEvent →
  List StoreExchange → Bool)

/-- Whether what an answer has submitted is permitted. -/
def permitted (process : RelayProcess σ) (answer : SessionAnswer σ) : Bool :=
  answer.submitted.all fun submission =>
    permits process.groups process.store submission.1 submission.2

/-- Takes the step that is chosen, if it can be taken. -/
def take (process : RelayProcess σ) : Turn → Option (List Observation × RelayProcess σ)
  | .opens options => do
    let (message, after) ← process.openSession runtime options
    return ([.opened process.nextConnectionId, .answered process.nextConnectionId [message]], after)
  | .receives connection message now faults => do
    let live ← process.sessions[connection]?
    guard live.answering.isNone
    let answer ← process.handleIncomingMessage runtime live message now faults
    guard (permitted permits process answer)
    return ([.stored connection answer.storedOffsets], answer.process.keepSession connection
      { answer.live with answering := some (answer.storedOffsets, repliesOf answer.replies) })
  | .publishes connection => do
    let live ← process.sessions[connection]?
    match live.answering with
    | some (offset :: offsets, replies) =>
      return ([.published connection offset],
        { process with eventBus := process.eventBus.send offset }.keepSession connection
          { live with answering := some (offsets, replies) })
    | _ => none
  | .consumes connection => do
    let live ← process.sessions[connection]?
    guard live.answering.isNone
    match process.eventBus.recv live.nextEvent with
    | (.value offset, next) =>
      let (replies, after) := process.handleEventOffset runtime live offset
      return ([.consumed connection offset], after.keepSession connection
        { live with nextEvent := next, answering := some ([], replies) })
    | (.lagged _, _) =>
      return ([.wrote connection eventStreamLagCloseMessage, .ended connection],
        process.endSession connection live)
    | (.empty, _) => none
  | .replies connection written => do
    let live ← process.sessions[connection]?
    match live.answering with
    | some ([], replies) =>
      match LiveSession.enqueueRelayMessages runtime live.outbound replies with
      | (.continue, outbound) =>
        return ([.answered connection replies],
          process.keepSession connection { live with outbound, answering := none })
      | (.close message, _) =>
        return ([.answered connection replies] ++
          (if written then [.wrote connection message] else []) ++ [.ended connection],
          process.endSession connection live)
      | (.stop, _) => none
    | _ => none
  | .writes connection => do
    let live ← process.sessions[connection]?
    guard live.answering.isNone
    let (message, outbound) ← live.outbound.recv?
    return ([.wrote connection message], process.keepSession connection { live with outbound })

/-- Takes one step after another. -/
def takeAll : RelayProcess σ → List Turn → Option (List Observation × RelayProcess σ)
  | process, [] => some ([], process)
  | process, turn :: rest => do
    let (seen, after) ← process.take runtime permits turn
    let (later, last) ← takeAll after rest
    return (seen ++ later, last)

section
variable {runtime : RelaySessionRuntime σ} {process process' : RelayProcess σ} {turn : Turn}
  {seen : List Observation}
  {allowed : Option GroupServiceState → PocketStore → PocketEvent →
    List StoreExchange → Prop}
  {permits : Option GroupServiceState → PocketStore → PocketEvent →
    List StoreExchange → Bool}

/-- **Every turn that the process takes is a step**: what `take` computes is allowed by the
relation, for each kind of turn. -/
theorem step_of_take (hpermits : ∀ groups store event log, permits groups store event log = true →
      event.Fits runtime.relay.codec ∧ allowed groups store event log)
    (h : process.take runtime permits turn = some (seen, process')) :
    Step runtime allowed process seen process' := by
  have hguard : ∀ {condition : Prop} [Decidable condition] {next : Option (List Observation ×
      RelayProcess σ)}, (guard condition >>= fun _ => next) = some (seen, process') →
      condition ∧ next = some (seen, process') := by
    intro condition _ next hnext
    by_cases hcondition : condition
    · rw [guard, if_pos hcondition] at hnext
      exact ⟨hcondition, hnext⟩
    · rw [guard, if_neg hcondition] at hnext
      cases hnext
  cases turn with
  | opens options =>
    obtain ⟨⟨message, after⟩, hopens, h⟩ := Option.bind_eq_some_iff.mp h
    cases h
    exact .opens hopens
  | receives connection message now faults =>
    obtain ⟨live, hlive, h⟩ := Option.bind_eq_some_iff.mp h
    obtain ⟨hidle, h⟩ := hguard h
    obtain ⟨answer, hanswer, h⟩ := Option.bind_eq_some_iff.mp h
    obtain ⟨hpermitted, h⟩ := hguard h
    cases h
    refine .receives hlive (Option.isNone_iff_eq_none.mp hidle) hanswer ?_
    intro event log hsubmitted
    unfold permitted at hpermitted
    rw [hsubmitted] at hpermitted
    exact hpermits _ _ _ _ hpermitted
  | publishes connection =>
    obtain ⟨live, hlive, h⟩ := Option.bind_eq_some_iff.mp h
    split at h
    · next hanswering =>
      cases h
      exact .publishes hlive hanswering
    · cases h
  | consumes connection =>
    obtain ⟨live, hlive, h⟩ := Option.bind_eq_some_iff.mp h
    obtain ⟨hidle, h⟩ := hguard h
    have hnone := Option.isNone_iff_eq_none.mp hidle
    split at h
    · next hrecv =>
      cases h
      exact .consumes hlive hnone hrecv rfl
    · next hrecv =>
      cases h
      exact .lags true hlive hnone hrecv
    · cases h
  | replies connection written =>
    obtain ⟨live, hlive, h⟩ := Option.bind_eq_some_iff.mp h
    split at h
    · next hanswering =>
      split at h
      · next henqueue =>
        cases h
        exact .replies hlive hanswering henqueue
      · next henqueue =>
        cases h
        exact .repliesClose written hlive hanswering henqueue
      · cases h
    · cases h
  | writes connection =>
    obtain ⟨live, hlive, h⟩ := Option.bind_eq_some_iff.mp h
    obtain ⟨hidle, h⟩ := hguard h
    obtain ⟨⟨message, outbound⟩, hrecv, h⟩ := Option.bind_eq_some_iff.mp h
    cases h
    exact .writes hlive (Option.isNone_iff_eq_none.mp hidle) hrecv

/-- A process goes on by the steps that are taken one after another. -/
theorem continues_of_takeAll {turns : List Turn}
    (hpermits : ∀ groups store event log, permits groups store event log = true →
      event.Fits runtime.relay.codec ∧ allowed groups store event log)
    (h : process.takeAll runtime permits turns = some (seen, process')) :
    Continues runtime allowed process seen process' := by
  induction turns generalizing process seen with
  | nil =>
    cases h
    exact .here
  | cons turn rest ih =>
    obtain ⟨⟨first, after⟩, htake, h⟩ := Option.bind_eq_some_iff.mp h
    obtain ⟨⟨later, last⟩, hlater, h⟩ := Option.bind_eq_some_iff.mp h
    cases h
    exact Continues.trans (.step .here (step_of_take hpermits htake)) (ih hlater)

end

end RelayProcess

end Tangle
