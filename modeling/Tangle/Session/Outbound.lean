import Tangle.Session.Streams

/-!
# What clients are sent

The queue of a connection keeps its replies in order until they are written. A connection that is
open has written, or still holds in its queue, the text of each of its replies; what one that has
ended has written is the first part of its replies (`replies_in_order`). A reply that has no text,
or finds the queue full, ends its connection.
-/

namespace Tangle

/-! ## Traces -/

/-- The text that a frame carries, if it is one of text. -/
def WsMessage.text? : WsMessage → Option Text
  | .text words => some words
  | _ => none

namespace Observation

/-- What an observation says of the replies given to one connection. -/
def repliesTo (connection : Nat) : Observation → List SessionReply
  | .answered to' replies => if to' = connection then replies else []
  | _ => []

/-- What an observation says of the texts written to one connection. -/
def textTo? (connection : Nat) : Observation → Option Text
  | .wrote to' message => if to' = connection then message.text? else none
  | _ => none

end Observation

/-- The replies of a connection, in their order. -/
def answeredBy (connection : Nat) (trace : List Observation) : List SessionReply :=
  trace.flatMap (Observation.repliesTo connection)

/-- The texts that a connection wrote, in their order. -/
def textsTo (connection : Nat) (trace : List Observation) : List Text :=
  trace.filterMap (Observation.textTo? connection)

section
variable {connection other : Nat} {trace seen : List Observation}

/-- The replies of two traces together are those of the first and then those of the second. -/
@[simp] theorem answeredBy_append :
    answeredBy connection (trace ++ seen) = answeredBy connection trace ++
      answeredBy connection seen :=
  List.flatMap_append

/-- The texts of two traces together are those of the first and then those of the second. -/
@[simp] theorem textsTo_append :
    textsTo connection (trace ++ seen) = textsTo connection trace ++ textsTo connection seen :=
  List.filterMap_append

/-- The replies of one answer, if it was given to this connection. -/
theorem answeredBy_single {replies : List SessionReply} :
    answeredBy connection [.answered other replies] = if other = connection then replies else [] :=
  List.append_nil _

/-- The text of one frame, if it was written to this connection. -/
theorem textsTo_single {message : WsMessage} : textsTo connection [.wrote other message] =
    if other = connection then message.text?.toList else [] := by
  by_cases heq : other = connection
  · rw [if_pos heq]
    cases htext : message.text? with
    | none => exact List.filterMap_cons_none ((if_pos heq).trans htext)
    | some text => exact List.filterMap_cons_some ((if_pos heq).trans htext)
  · rw [if_neg heq]
    exact List.filterMap_cons_none (if_neg heq)

end

variable {σ : Type} {runtime : RelaySessionRuntime σ} {process process' : RelayProcess σ}
  {live : LiveSession}

/-! ## Queues -/

/-- The queue has taken the texts of these replies, and these texts were taken out of it. -/
def Holds (runtime : RelaySessionRuntime σ) (replies : List SessionReply) (written : List Text)
    (outbound : BoundedQueue WsMessage) : Prop :=
  ∃ texts, replies.mapM runtime.encode = .ok texts ∧
    texts.map WsMessage.text = written.map WsMessage.text ++ outbound.pending

/-- A new queue holds no reply that was not given. -/
theorem holds_new {capacity : Nat} : Holds runtime [] [] (.new capacity) :=
  ⟨[], rfl, rfl⟩

/-- The texts written are the first of the replies' texts. -/
theorem Holds.writtenFirst {replies : List SessionReply} {written : List Text}
    {outbound : BoundedQueue WsMessage} (h : Holds runtime replies written outbound) :
    ∃ texts, replies.mapM runtime.encode = .ok texts ∧ written <+: texts := by
  obtain ⟨texts, hencoded, htexts⟩ := h
  refine ⟨texts, hencoded, ?_⟩
  have hlength : (texts.map WsMessage.text).take written.length = written.map WsMessage.text := by
    rw [htexts, List.take_left' (List.length_map _)]
  rw [← List.map_take] at hlength
  have hinjective : Function.Injective WsMessage.text := by
    intro a b heq
    cases heq
    rfl
  rw [← List.map_injective_iff.mpr hinjective hlength]
  exact List.take_prefix _ _

/-- **Writing the first frame of the queue keeps what is owed**: the text that it carries is the
next of the replies' texts. -/
theorem Holds.written {replies : List SessionReply} {written : List Text} {message : WsMessage}
    {outbound rest : BoundedQueue WsMessage} (h : Holds runtime replies written outbound)
    (hrecv : outbound.recv? = some (message, rest)) :
    Holds runtime replies (written ++ message.text?.toList) rest := by
  obtain ⟨texts, hencoded, htexts⟩ := h
  obtain ⟨hpending, _⟩ := BoundedQueue.laws.recv?_eq_some hrecv
  rw [hpending] at htexts
  have hmem : message ∈ texts.map WsMessage.text := by
    rw [htexts]
    exact List.mem_append_right _ (List.mem_cons_self ..)
  obtain ⟨text, _, rfl⟩ := List.mem_map.mp hmem
  refine ⟨texts, hencoded, ?_⟩
  rw [htexts, List.map_append, List.append_assoc]
  rfl

/-- **Enqueueing a reply keeps what is owed**: its text goes behind those that wait. -/
theorem Holds.enqueued {replies : List SessionReply} {written : List Text} {reply : SessionReply}
    {outbound after : BoundedQueue WsMessage} (h : Holds runtime replies written outbound)
    (henqueue : LiveSession.enqueueRelayMessage runtime outbound reply = .ok after) :
    Holds runtime (replies ++ [reply]) written after := by
  obtain ⟨texts, hencoded, htexts⟩ := h
  unfold LiveSession.enqueueRelayMessage at henqueue
  obtain ⟨text, htext, henqueue⟩ := Except.bind_eq_ok.mp henqueue
  obtain ⟨hpending, _⟩ := BoundedQueue.laws.trySend_eq_some (Except.okOr_eq_ok.mp henqueue)
  refine ⟨texts ++ [text], ?_, ?_⟩
  · rw [List.mapM_append]
    refine Except.bind_eq_ok.mpr ⟨texts, hencoded, Except.bind_eq_ok.mpr ⟨[text], ?_, rfl⟩⟩
    exact Except.mapM_eq_ok.mpr (.cons (Except.mapError_eq_ok.mp htext) .nil)
  · rw [List.map_append, htexts, hpending, List.append_assoc]
    rfl

/-- A reply is refused because it has no text, or because the queue is full. -/
theorem enqueueRelayMessage_error {outbound : BoundedQueue WsMessage} {reply : SessionReply}
    {control : TangleSessionControl}
    (h : LiveSession.enqueueRelayMessage runtime outbound reply = .error control) :
    control = .close outboundEncodeCloseMessage ∨
      control = .close outboundQueueFullCloseMessage := by
  unfold LiveSession.enqueueRelayMessage at h
  rcases Except.bind_eq_error.mp h with hencode | ⟨text, _, hfull⟩
  · cases hencoded : runtime.encode reply with
    | error error =>
      rw [hencoded] at hencode
      cases hencode
      exact .inl rfl
    | ok text =>
      rw [hencoded] at hencode
      cases hencode
  · cases hsend : outbound.trySend (.text text) with
    | none =>
      rw [hsend] at hfull
      cases hfull
      exact .inr rfl
    | some after =>
      rw [hsend] at hfull
      cases hfull

/-- Replies are put into the queue until one cannot be. -/
theorem Holds.enqueuedAll {before replies : List SessionReply} {written : List Text}
    {outbound after : BoundedQueue WsMessage} {control : TangleSessionControl}
    (h : Holds runtime before written outbound)
    (henqueue : LiveSession.enqueueRelayMessages runtime outbound replies = (control, after)) :
    ∃ done rest, replies = done ++ rest ∧ Holds runtime (before ++ done) written after ∧
      (control = .continue → rest = []) := by
  induction replies generalizing before outbound with
  | nil =>
    cases henqueue
    exact ⟨[], [], rfl, by rw [List.append_nil]; exact h, fun _ => rfl⟩
  | cons reply rest ih =>
    unfold LiveSession.enqueueRelayMessages at henqueue
    cases hone : LiveSession.enqueueRelayMessage runtime outbound reply with
    | error refused =>
      rw [hone] at henqueue
      cases henqueue
      refine ⟨[], reply :: rest, rfl, by rw [List.append_nil]; exact h, ?_⟩
      rintro rfl
      rcases enqueueRelayMessage_error hone with hclose | hclose <;> cases hclose
    | ok next =>
      rw [hone] at henqueue
      obtain ⟨done, left, hrest, hholds, hall⟩ := ih (h.enqueued hone) henqueue
      refine ⟨reply :: done, left, by rw [hrest]; rfl, ?_, hall⟩
      rw [List.append_assoc] at hholds
      exact hholds

/-! ## Steps -/

namespace RelayProcess

variable {allowed : Option GroupServiceState → PocketStore → PocketEvent →
  List StoreExchange → Prop} {start : PocketStore} {trace seen : List Observation}

/-- What a step that opens no connection does to the queues: a connection puts replies into its
queue, and stays open only if they all go in, or it writes the first message of its queue. -/
structure QueueEffect (runtime : RelaySessionRuntime σ) (process : RelayProcess σ)
    (seen : List Observation) (process' : RelayProcess σ) : Prop where
  gone : ∀ connection, process.sessions[connection]? = none →
    process'.sessions[connection]? = none ∧ answeredBy connection seen = [] ∧
      textsTo connection seen = []
  stays : ∀ connection live, process.sessions[connection]? = some live →
    (answeredBy connection seen = [] ∧ textsTo connection seen = [] ∧
      ∀ live', process'.sessions[connection]? = some live' → live'.outbound = live.outbound) ∨
    (∃ control outbound, textsTo connection seen = [] ∧
      LiveSession.enqueueRelayMessages runtime live.outbound (answeredBy connection seen) =
        (control, outbound) ∧
      ∀ live', process'.sessions[connection]? = some live' →
        control = .continue ∧ live'.outbound = outbound) ∨
    ∃ message outbound, answeredBy connection seen = [] ∧
      textsTo connection seen = message.text?.toList ∧
      live.outbound.recv? = some (message, outbound) ∧
      ∀ live', process'.sessions[connection]? = some live' → live'.outbound = outbound

/-- Nothing is answered or written. -/
structure Silent (seen : List Observation) : Prop where
  answered : ∀ connection, answeredBy connection seen = []
  written : ∀ connection, textsTo connection seen = []

/-- A trace of nothing is silent. -/
theorem silent_nil : Silent [] :=
  ⟨fun _ => rfl, fun _ => rfl⟩

/-- Two silent traces together are silent. -/
theorem Silent.append {more : List Observation} (h : Silent seen) (hmore : Silent more) :
    Silent (seen ++ more) := by
  constructor
  · intro connection
    rw [answeredBy_append, h.answered, hmore.answered, List.append_nil]
  · intro connection
    rw [textsTo_append, h.written, hmore.written, List.append_nil]

/-- The end of a connection writes and answers nothing. -/
theorem silent_ended {connection : Nat} : Silent [.ended connection] :=
  ⟨fun _ => rfl, fun _ => rfl⟩

/-- A message that is no text says nothing to the client. -/
theorem silent_wrote {connection : Nat} {message : WsMessage} (h : message.text? = none) :
    Silent [.wrote connection message] := by
  constructor
  · intro other
    rfl
  · intro other
    rw [textsTo_single, h]
    exact ite_self _

/-- A closing frame carries no text. -/
theorem silent_closing {connection : Nat} {frame : Option CloseFrame} {written : Bool} :
    Silent (if written then [.wrote connection (.close frame)] else []) := by
  split
  · exact silent_wrote rfl
  · exact silent_nil

/-- The last message of a connection that ends carries no text. -/
theorem silent_last {connection : Nat} {last : Option WsMessage}
    (h : ∀ message ∈ last, message = .close none ∨ message = keepaliveTimeoutCloseMessage) :
    Silent (last.toList.map fun message => .wrote connection message) := by
  cases last with
  | none => exact silent_nil
  | some message =>
    rcases h message rfl with rfl | rfl
    · exact silent_wrote rfl
    · exact silent_wrote rfl

/-- The connections that stay have the queues that they had. -/
def KeepsQueues (process process' : RelayProcess σ) : Prop :=
  ∀ (connection : Nat) (live' : LiveSession), process'.sessions[connection]? = some live' →
    ∃ live : LiveSession, process.sessions[connection]? = some live ∧ live'.outbound = live.outbound

/-- A process keeps its own queues. -/
theorem KeepsQueues.refl (process : RelayProcess σ) : KeepsQueues process process :=
  fun _ live hlive => ⟨live, hlive, rfl⟩

/-- A step that changes one session but not its queue keeps the queues. -/
theorem keepsQueues_keepSession {connection : Nat} {live' : LiveSession}
    (hlive : process.sessions[connection]? = some live)
    (hsessions : process'.sessions = process.sessions) (hsame : live'.outbound = live.outbound) :
    KeepsQueues process (process'.keepSession connection live') := by
  intro other after hafter
  unfold keepSession at hafter
  rw [BTreeMap.getElem?_insert, hsessions] at hafter
  split at hafter
  · next heq =>
    subst heq
    cases hafter
    exact ⟨live, hlive, hsame⟩
  · exact ⟨after, hafter, rfl⟩

/-- A session that ends takes its queue with it, and no other queue is touched. -/
theorem keepsQueues_endSession {connection : Nat} :
    KeepsQueues process (process.endSession connection live) := by
  intro other after hafter
  have herase : (process.endSession connection live).sessions[other]? =
      if connection = other then none else process.sessions[other]? := BTreeMap.getElem?_erase
  rw [herase] at hafter
  split at hafter
  · cases hafter
  · exact ⟨after, hafter, rfl⟩

/-- A step that says nothing. -/
theorem queueEffect_silent (hseen : Silent seen) (hkeeps : KeepsQueues process process') :
    QueueEffect runtime process seen process' := by
  constructor
  · intro connection hnone
    refine ⟨?_, hseen.answered connection, hseen.written connection⟩
    cases hlive' : process'.sessions[connection]? with
    | none => rfl
    | some live' =>
      obtain ⟨live, hlive, _⟩ := hkeeps connection live' hlive'
      cases hnone.symm.trans hlive
  · intro connection live hlive
    refine .inl ⟨hseen.answered connection, hseen.written connection, ?_⟩
    intro live' hlive'
    obtain ⟨before, hbefore, hsame⟩ := hkeeps connection live' hlive'
    cases hlive.symm.trans hbefore
    exact hsame

/-- A step that says something to one client. -/
theorem queueEffect_of {connection : Nat} (hlive : process.sessions[connection]? = some live)
    (hothers : ∀ other, connection ≠ other →
      process'.sessions[other]? = process.sessions[other]? ∧ answeredBy other seen = [] ∧
        textsTo other seen = [])
    (hown : (∃ control outbound, textsTo connection seen = [] ∧
        LiveSession.enqueueRelayMessages runtime live.outbound (answeredBy connection seen) =
          (control, outbound) ∧
        ∀ live', process'.sessions[connection]? = some live' →
          control = .continue ∧ live'.outbound = outbound) ∨
      ∃ message outbound, answeredBy connection seen = [] ∧
        textsTo connection seen = message.text?.toList ∧
        live.outbound.recv? = some (message, outbound) ∧
        ∀ live', process'.sessions[connection]? = some live' → live'.outbound = outbound) :
    QueueEffect runtime process seen process' := by
  constructor
  · intro other hnone
    have hne : connection ≠ other := by
      rintro rfl
      rw [hlive] at hnone
      cases hnone
    obtain ⟨hsessions, hanswered, hwritten⟩ := hothers other hne
    exact ⟨hsessions.trans hnone, hanswered, hwritten⟩
  · intro other before hbefore
    by_cases heq : connection = other
    · subst heq
      cases hlive.symm.trans hbefore
      exact .inr hown
    · obtain ⟨hsessions, hanswered, hwritten⟩ := hothers other heq
      refine .inl ⟨hanswered, hwritten, ?_⟩
      intro live' hlive'
      rw [hsessions, hbefore] at hlive'
      cases hlive'
      rfl

/-- A connection is closed with a message that is no text. -/
theorem text?_of_enqueueRelayMessages {outbound after : BoundedQueue WsMessage}
    {replies : List SessionReply} {message : WsMessage}
    (h : LiveSession.enqueueRelayMessages runtime outbound replies = (.close message, after)) :
    message.text? = none := by
  induction replies generalizing outbound with
  | nil => cases h
  | cons reply rest ih =>
    unfold LiveSession.enqueueRelayMessages at h
    cases hone : LiveSession.enqueueRelayMessage runtime outbound reply with
    | ok next =>
      rw [hone] at h
      exact ih h
    | error refused =>
      rw [hone] at h
      cases h
      rcases enqueueRelayMessage_error hone with hclose | hclose
      · cases hclose
        rfl
      · cases hclose
        rfl

/-- **What one step does to the queues**: it opens a connection with its first message, or it does
what `QueueEffect` says of one queue and keeps the others. One case for each step. -/
theorem Step.queueEffect (h : Step runtime allowed process seen process') :
    (∃ options message, seen = [.opened process.nextConnectionId,
        .answered process.nextConnectionId [message]] ∧
      process.openSession runtime options = some (message, process')) ∨
    QueueEffect runtime process seen process' := by
  have hnothing : ∀ observation : Observation,
    (∀ connection, answeredBy connection [observation] = []) →
      (∀ connection, textsTo connection [observation] = []) → Silent [observation] :=
    fun _ hanswered hwritten => ⟨hanswered, hwritten⟩
  have hinsert : ∀ {connection other : Nat} {live : LiveSession}, connection ≠ other →
      (process.keepSession connection live).sessions[other]? = process.sessions[other]? :=
    fun hne => BTreeMap.getElem?_insert_ne hne
  cases h with
  | opens hopens => exact .inl ⟨_, _, rfl, hopens⟩
  | receives hlive _ hanswer _ =>
    have hfrom := answersFrom_handleIncomingMessage hanswer
    exact .inr (queueEffect_silent (hnothing _ (fun _ => rfl) fun _ => rfl)
      (keepsQueues_keepSession hlive hfrom.streams.sessions hfrom.outbound))
  | publishes hlive _ =>
    exact .inr (queueEffect_silent (hnothing _ (fun _ => rfl) fun _ => rfl)
      (keepsQueues_keepSession hlive rfl rfl))
  | consumes hlive _ _ hreplies =>
    exact .inr (queueEffect_silent (hnothing _ (fun _ => rfl) fun _ => rfl)
      (keepsQueues_keepSession hlive (handleEventOffset_eq hreplies).1.sessions rfl))
  | lags written _ _ _ =>
    exact .inr (queueEffect_silent (silent_closing.append silent_ended) keepsQueues_endSession)
  | @replies connection live replies outbound hlive _ henqueue =>
    refine .inr (queueEffect_of hlive ?_ (.inl ⟨.continue, outbound, rfl, ?_, ?_⟩))
    · intro other hne
      rw [answeredBy_single, if_neg hne]
      exact ⟨hinsert hne, rfl, rfl⟩
    · rw [answeredBy_single, if_pos rfl]
      exact henqueue
    · intro live' hlive'
      unfold keepSession at hlive'
      rw [BTreeMap.getElem?_insert_self] at hlive'
      cases hlive'
      exact ⟨rfl, rfl⟩
  | @repliesClose connection live replies message outbound written hlive _ henqueue =>
    have hclosing : Silent ((if written then [.wrote connection message] else []) ++
        [.ended connection]) := by
      refine Silent.append ?_ silent_ended
      split
      · exact silent_wrote (text?_of_enqueueRelayMessages henqueue)
      · exact silent_nil
    have herase : ∀ other, (process.endSession connection live).sessions[other]? =
        if connection = other then none else process.sessions[other]? := fun _ =>
      BTreeMap.getElem?_erase
    rw [List.append_assoc]
    refine .inr (queueEffect_of hlive ?_ (.inl ⟨.close message, outbound, ?_, ?_, ?_⟩))
    · intro other hne
      rw [answeredBy_append, textsTo_append, answeredBy_single, if_neg hne, hclosing.answered,
        hclosing.written, herase, if_neg hne]
      exact ⟨rfl, rfl, rfl⟩
    · rw [textsTo_append, hclosing.written]
      rfl
    · rw [answeredBy_append, answeredBy_single, if_pos rfl, hclosing.answered, List.append_nil]
      exact henqueue
    · intro live' hlive'
      rw [herase, if_pos rfl] at hlive'
      cases hlive'
  | @writes connection live message outbound hlive _ hrecv =>
    refine .inr (queueEffect_of hlive ?_ (.inr ⟨message, outbound, rfl, ?_, hrecv, ?_⟩))
    · intro other hne
      rw [textsTo_single, if_neg hne]
      exact ⟨hinsert hne, rfl, rfl⟩
    · rw [textsTo_single, if_pos rfl]
    · intro live' hlive'
      unfold keepSession at hlive'
      rw [BTreeMap.getElem?_insert_self] at hlive'
      cases hlive'
      rfl
  | keepsAlive _ _ hmessage =>
    obtain ⟨payload, rfl | rfl⟩ := hmessage
    · exact .inr (queueEffect_silent (silent_wrote rfl) (.refl process))
    · exact .inr (queueEffect_silent (silent_wrote rfl) (.refl process))
  | ends _ _ hlast =>
    exact .inr (queueEffect_silent ((silent_last hlast).append silent_ended) keepsQueues_endSession)
  | shares _ _ _ => exact .inr (queueEffect_silent silent_nil (.refl process))

/-! ## Runs -/

/-- Each connection that was opened has written the first part of the texts of its replies, and one
that is open holds the rest in its queue. -/
def Answers (runtime : RelaySessionRuntime σ) (trace : List Observation)
    (process : RelayProcess σ) : Prop :=
  ∀ connection earlier later, trace = earlier ++ .opened connection :: later →
    ∃ done rest outbound, answeredBy connection later = done ++ rest ∧
      Holds runtime done (textsTo connection later) outbound ∧
      ∀ live, process.sessions[connection]? = some live → rest = [] ∧ live.outbound = outbound

/-- One step keeps what every queue owes to its connection. -/
theorem Answers.step (h : Answers runtime trace process) (htracked : Tracked trace process)
    (hstep : Step runtime allowed process seen process') :
    Answers runtime (trace ++ seen) process' := by
  intro connection earlier later htrace
  rcases hstep.streamEffect with ⟨options, message, rfl, hopens⟩ | heffect
  · obtain ⟨opened, _, _, henqueue, rfl⟩ := openSession_eq_some hopens
    rcases split_opened htrace with ⟨rfl, _, rfl⟩ | ⟨between, hbefore, rfl⟩
    · refine ⟨[message], [], opened.outbound, ?_, holds_new.enqueued henqueue, ?_⟩
      · rw [answeredBy_single, if_pos rfl, List.append_nil]
      · intro live hlive
        rw [BTreeMap.getElem?_insert_self] at hlive
        cases hlive
        exact ⟨rfl, rfl⟩
    · obtain ⟨done, rest, outbound, hanswered, hholds, hlives⟩ :=
        h connection earlier between hbefore
      have hmem : .opened connection ∈ trace := by
        rw [hbefore]
        exact List.mem_append_right _ (List.mem_cons_self ..)
      have hne : process.nextConnectionId ≠ connection := Nat.ne_of_gt (htracked.before _ hmem)
      refine ⟨done, rest, outbound, ?_, ?_, ?_⟩
      · rw [answeredBy_append, hanswered]
        show _ ++ answeredBy connection ([.opened process.nextConnectionId] ++
          [.answered process.nextConnectionId [message]]) = _
        rw [answeredBy_append, answeredBy_single, if_neg hne]
        exact List.append_nil _
      · rw [textsTo_append]
        show Holds runtime done (_ ++ []) outbound
        rw [List.append_nil]
        exact hholds
      · intro live hlive
        rw [BTreeMap.getElem?_insert_ne hne] at hlive
        exact hlives live hlive
  · have hqueues : QueueEffect runtime process seen process' := by
      rcases hstep.queueEffect with ⟨_, _, rfl, _⟩ | hqueues
      · exact absurd (List.mem_cons_self ..) (heffect.notOpened process.nextConnectionId)
      · exact hqueues
    rcases split_seen htrace with ⟨more, _, hseen⟩ | ⟨between, hbefore, rfl⟩
    · refine absurd ?_ (heffect.notOpened connection)
      rw [hseen]
      exact List.mem_append_right _ (List.mem_cons_self ..)
    · obtain ⟨done, rest, outbound, hanswered, hholds, hlives⟩ :=
        h connection earlier between hbefore
      rw [answeredBy_append, textsTo_append, hanswered]
      cases hlive : process.sessions[connection]? with
      | none =>
        obtain ⟨hgone, hnothing, hunwritten⟩ := hqueues.gone connection hlive
        rw [hnothing, hunwritten, List.append_nil, List.append_nil]
        refine ⟨done, rest, outbound, rfl, hholds, ?_⟩
        intro live' hlive'
        rw [hgone] at hlive'
        cases hlive'
      | some live =>
        obtain ⟨rfl, rfl⟩ := hlives live hlive
        rw [List.append_nil]
        rcases hqueues.stays connection live hlive with ⟨hnothing, hunwritten, hsame⟩ |
          ⟨control, after, hunwritten, henqueue, hstays⟩ |
          ⟨message, after, hnothing, hwritten, hrecv, hstays⟩
        · rw [hnothing, hunwritten, List.append_nil, List.append_nil]
          refine ⟨done, [], live.outbound, (List.append_nil _).symm, hholds, ?_⟩
          intro live' hlive'
          exact ⟨rfl, hsame live' hlive'⟩
        · obtain ⟨more, left, hsplit, hmore, hall⟩ := hholds.enqueuedAll henqueue
          rw [hunwritten, hsplit, List.append_nil]
          refine ⟨done ++ more, left, after, (List.append_assoc ..).symm, hmore, ?_⟩
          intro live' hlive'
          obtain ⟨hcontinue, hsame⟩ := hstays live' hlive'
          exact ⟨hall hcontinue, hsame⟩
        · rw [hnothing, hwritten, List.append_nil]
          refine ⟨done, [], after, (List.append_nil _).symm, hholds.written hrecv, ?_⟩
          intro live' hlive'
          exact ⟨rfl, hstays live' hlive'⟩

/-- **In every run the texts written to a connection are the first of the replies given to it**: by
induction on the run, each step keeping what the queues owe. -/
theorem Runs.answers (h : Runs runtime allowed start trace process) :
    Answers runtime trace process := by
  induction h with
  | started _ =>
    intro connection earlier later htrace
    cases earlier <;> cases htrace
  | step hrun hstep ih => exact ih.step hrun.tracked hstep

end RelayProcess

/-- **Clients are sent all replies in order.** Whatever the connections of a process do, in any
order: the texts that a connection has written are the first of the texts of its replies. One that
is open has put all its replies into its queue, and has written them or still holds them there. -/
theorem replies_in_order {σ : Type} {runtime : RelaySessionRuntime σ}
    {allowed : Option GroupServiceState → PocketStore → PocketEvent →
      List StoreExchange → Prop} {start : PocketStore}
    {trace earlier later : List Observation} {process : RelayProcess σ} {connection : Nat}
    (h : RelayProcess.Runs runtime allowed start trace process)
    (hopened : trace = earlier ++ .opened connection :: later) :
    ∃ done rest texts, answeredBy connection later = done ++ rest ∧
      done.mapM runtime.encode = .ok texts ∧ textsTo connection later <+: texts ∧
      ∀ live, process.sessions[connection]? = some live → rest = [] ∧
        texts.map WsMessage.text =
          (textsTo connection later).map WsMessage.text ++ live.outbound.pending := by
  obtain ⟨done, rest, outbound, hanswered, hholds, hlives⟩ :=
    h.answers connection earlier later hopened
  obtain ⟨texts, hencoded, hwritten⟩ := hholds.writtenFirst
  refine ⟨done, rest, texts, hanswered, hencoded, hwritten, ?_⟩
  intro live hlive
  obtain ⟨hnothing, rfl⟩ := hlives live hlive
  refine ⟨hnothing, ?_⟩
  obtain ⟨texts', hencoded', htexts⟩ := hholds
  cases hencoded.symm.trans hencoded'
  exact htexts

open Sample in
/-- The visitor who has asked has been written three replies, and two are to follow. -/
theorem replies_in_order_visit : ∃ trace earlier later process done rest texts,
    RelayProcess.Runs liveRuntime (GoesThrough liveRuntime.relay) .empty trace process ∧
      trace = earlier ++ .opened 0 :: later ∧ (textsTo 0 trace).length = 3 ∧
      answeredBy 0 later = done ++ rest ∧ done.mapM liveRuntime.encode = .ok texts ∧
      textsTo 0 later <+: texts := by
  have htaken : (takenFrom visit).any (fun taken => decide (.opened 0 ∈ taken.1 ∧
      (textsTo 0 taken.1).length = 3)) = true := by
    decide +kernel
  obtain ⟨trace, process, hruns, hopened, hone⟩ := runs_of_takenFrom htaken
  obtain ⟨earlier, later, htrace⟩ := List.append_of_mem hopened
  obtain ⟨done, rest, texts, hanswered, hencoded, hwritten, -⟩ := replies_in_order hruns htrace
  exact ⟨trace, earlier, later, process, done, rest, texts, hruns, htrace, hone,
    hanswered, hencoded,
    hwritten⟩

end Tangle
