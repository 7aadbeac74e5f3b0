import Tangle.Lib.Faults
import Tangle.Runtime.Serving

/-!
# A store that fails

Any operation of the store may fail, for a fault of the environment or because the database refuses
an event. A fault strikes an operation before it has done anything, or it strikes the flush that
follows a write: the write has then been committed although its reply is an error
(`Relay.strike`). The rules are for every handler that answers as the database does or fails: what
it has been asked to store it has appended, and an error is a failed operation, whose write may have
been done (`AnswersAs`).
-/

namespace Tangle

/-! ## Failures -/

/-- The reply of an operation that fails. -/
def StoreOp.fail : (o : StoreOp) → String → o.Reply
  | .eventById _, error => .error error
  | .storeEvent _, error => .error error
  | .scanEventsAfter _, error => .error error
  | .getExtraRecord _ _, error => .error error
  | .putExtraRecord _ _ _, error => .error error
  | .deleteExtraRecord _ _, error => .error error
  | .scanExtraRecords _, error => .error error

/-- Whether an operation has failed. -/
def StoreOp.failed : (o : StoreOp) → o.Reply → Bool
  | .eventById _, reply => !Except.isOk reply
  | .storeEvent _, reply => !Except.isOk reply
  | .scanEventsAfter _, reply => !Except.isOk reply
  | .getExtraRecord _ _, reply => !Except.isOk reply
  | .putExtraRecord _ _ _, reply => !Except.isOk reply
  | .deleteExtraRecord _ _, reply => !Except.isOk reply
  | .scanExtraRecords _, reply => !Except.isOk reply

theorem StoreOp.failed_fail (o : StoreOp) (error : String) : o.failed (o.fail error) = true := by
  cases o <;> rfl

/-- The reply of an operation once the store has flushed: `store_event`, `put_extra_record` and
`delete_extra_record` flush when their write is committed, and return the error of the flush. -/
def StoreOp.synced (sync : Except String Unit) : (o : StoreOp) → o.Reply → o.Reply
  | .storeEvent _, reply => do
    let offset ← (reply : Except String StoreOffset)
    sync
    return offset
  | .putExtraRecord _ _ _, reply => do
    (reply : Except String Unit)
    sync
  | .deleteExtraRecord _ _, reply => do
    (reply : Except String Unit)
    sync
  | .eventById _, reply => reply
  | .scanEventsAfter _, reply => reply
  | .getExtraRecord _ _, reply => reply
  | .scanExtraRecords _, reply => reply

/-- A flush that fails makes the operation fail, or it makes no difference: to what only reads, and
to a write that has failed already. -/
theorem StoreOp.synced_error (o : StoreOp) (error : String) (reply : o.Reply) :
    o.failed (o.synced (.error error) reply) = true ∨ o.synced (.error error) reply = reply := by
  cases o with
  | storeEvent event =>
    cases reply with
    | ok offset => exact .inl rfl
    | error _ => exact .inr rfl
  | putExtraRecord table key value =>
    cases reply with
    | ok done => exact .inl rfl
    | error _ => exact .inr rfl
  | deleteExtraRecord table key =>
    cases reply with
    | ok done => exact .inl rfl
    | error _ => exact .inr rfl
  | _ => exact .inr rfl

/-- A flush that succeeds makes no difference. -/
theorem StoreOp.synced_ok (o : StoreOp) (reply : o.Reply) : o.synced (.ok ()) reply = reply := by
  cases o with
  | storeEvent event => cases reply <;> rfl
  | putExtraRecord table key value => cases reply <;> rfl
  | deleteExtraRecord table key => cases reply <;> rfl
  | _ => rfl

/-- What fails in the store: an operation, which then has done nothing, or the flush after it. -/
inductive StoreFault where
  | operation (error : String)
  | sync (error : String)

/-- What an operation replies and leaves when a fault strikes it. A flush is made after writes only,
and only by a store that flushes on write. -/
def Relay.strike (relay : Relay) (o : StoreOp) : StoreFault → PocketStore → o.Reply × PocketStore
  | .operation error, store => (o.fail error, store)
  | .sync error, store =>
    (o.synced (relay.syncPolicy.syncAfterWrite (.error error)) (relay.db.handle o store).1,
      (relay.db.handle o store).2)

/-- A fault makes an operation fail, which has then been done or not, or it strikes nothing. -/
theorem Relay.strikes (relay : Relay) :
    Strikes relay.db.handle (fun o reply => StoreOp.failed o reply = true) relay.strike := by
  intro o fault store
  cases fault with
  | operation error => exact .inl ⟨o.failed_fail error, .inl rfl⟩
  | sync error =>
    unfold Relay.strike
    cases relay.syncPolicy with
    | flushOnWrite =>
      refine (o.synced_error error (relay.db.handle o store).1).imp
        (fun hfailed => ⟨hfailed, .inr rfl⟩) fun hsame => ?_
      exact Prod.ext hsame rfl
    | flushOnShutdown => exact .inr (Prod.ext (o.synced_ok _) rfl)

/-! ## Logs -/

/-- An operation of the store with its reply, and the store before and after it. -/
abbrev StoreExchange : Type :=
  Exchange storeInterface PocketStore

/-- Whether the operation has failed. -/
def StoreExchange.failed (exchange : StoreExchange) : Bool :=
  StoreOp.failed exchange.op exchange.reply

/-- Whether the operation has stored an event, whatever it replied. -/
def StoreExchange.stored (exchange : StoreExchange) : Bool :=
  exchange.before.events.length < exchange.after.events.length

/-- The store of a relay, on which the operations fail that are due to, with a log. -/
abbrev Relay.faultyHandle (relay : Relay) :
    Handler storeInterface (List StoreExchange × List (Option StoreFault) × PocketStore) :=
  (relay.db.handle.faulty relay.strike).logged Prod.snd

/-! ## The operations -/

section
variable {σ : Type} {handle : Handler storeInterface σ} {relay : Relay} {view : σ → PocketStore}
  {steady broken : σ → Prop} {s : σ} {ε : Type} {wrap : String → ε}

/-- The handler answers as the relay's store, or fails. -/
abbrev Relay.AnsweredBy (relay : Relay) (handle : Handler storeInterface σ)
    (view : σ → PocketStore) (steady broken : σ → Prop) : Prop :=
  AnswersAs handle relay.db.handle (fun o reply => StoreOp.failed o reply = true) view steady broken

/-- Some operation has failed behind what was logged at first. -/
def FailedBehind (before log : List StoreExchange) : Prop :=
  ∃ later, log = before ++ later ∧ ∃ exchange ∈ later, exchange.failed = true

/-- The faulty store answers as the relay's store, or fails. -/
theorem Relay.answeredBy_faultyHandle (relay : Relay) (before : List StoreExchange) :
    relay.AnsweredBy relay.faultyHandle (fun s => s.2.2) (fun s => before <+: s.1)
      fun s => FailedBehind before s.1 :=
  AnswersAs.faulty relay.strikes before

/-- An operation whose reply is read has not failed. -/
theorem not_failed_of_read {α : Type} {reply : Except String α} {a : α}
    (h : reply.mapError wrap = .ok a) : ¬ (!reply.isOk) = true := by
  cases reply with
  | ok found => exact Bool.false_ne_true
  | error error => cases h

/-- An operation whose error is passed on has failed. -/
theorem failed_of_read {α : Type} {reply : Except String α} {e : ε}
    (h : reply.mapError wrap = .error e) : (!reply.isOk) = true := by
  cases reply with
  | ok found => cases h
  | error error => rfl

namespace Relay.AnsweredBy

variable (hf : relay.AnsweredBy handle view steady broken)
include hf

/-- Looking for an event by its id changes nothing, and finds what the database finds. -/
theorem wp_eventById (hs : steady s) (id : EventId) :
    Wp handle steady (StoreM.eventById wrap id) s
      (fun found s' => found = relay.db.findById (view s).events id ∧ view s' = view s)
      fun _ s' => broken s' ∧ view s' = view s := by
  refine hf.wp_perform hs (fun _ _ => not_failed_of_read) (fun _ _ => failed_of_read)
    (fun found s' _ hread hview => ⟨(Except.ok.inj hread).symm, hview⟩)
    fun _ _ _ hbroken hview => ⟨hbroken, hview.elim (fun h => h) fun h => h⟩

/-- Storing an event appends it at the next offset. When it fails the event may be there all the
same, unless the database refuses it. -/
theorem wp_storeEvent (hs : steady s) (event : PocketEvent) :
    Wp handle steady (StoreM.storeEvent wrap event) s
      (fun offset s' => offset = relay.db.nextOffset (view s).events ∧
        relay.db.refuses (view s).events event = none ∧
        view s' = { view s with events := (view s).events ++ [⟨event, offset⟩] })
      fun _ s' => broken s' ∧ (view s' = view s ∨ relay.db.refuses (view s).events event = none ∧
        view s' = { view s with
          events := (view s).events ++ [⟨event, relay.db.nextOffset (view s).events⟩] }) := by
  have hreply : relay.db.handle (.storeEvent event) (view s) = relay.db.storeEvent event (view s) :=
    rfl
  refine hf.wp_perform hs (fun _ _ => not_failed_of_read) (fun _ _ => failed_of_read)
    (fun offset s' _ hread hview => ?_) fun _ _ _ hbroken hview => ⟨hbroken, ?_⟩
  · rw [hreply] at hread hview
    unfold PocketDb.storeEvent at hread hview
    cases hrefuses : relay.db.refuses (view s).events event with
    | some error =>
      rw [hrefuses] at hread
      cases hread
    | none =>
      rw [hrefuses] at hread hview
      cases hread
      exact ⟨rfl, rfl, hview⟩
  · rcases hview with hview | hview
    · exact .inl hview
    · rw [hreply] at hview
      unfold PocketDb.storeEvent at hview
      cases hrefuses : relay.db.refuses (view s).events event with
      | some error =>
        rw [hrefuses] at hview
        exact .inl hview
      | none =>
        rw [hrefuses] at hview
        exact .inr ⟨rfl, hview⟩

/-- A scan changes nothing, and finds the events behind the offset. -/
theorem wp_scanEventsAfter (hs : steady s) (lastOffset : Option StoreOffset) :
    Wp handle steady (StoreM.scanEventsAfter wrap lastOffset) s
      (fun stored s' => PocketDb.scanAfter (view s).events lastOffset = .ok stored ∧
        view s' = view s)
      fun _ s' => broken s' ∧ view s' = view s := by
  refine hf.wp_perform hs (fun _ _ => not_failed_of_read) (fun _ _ => failed_of_read)
    (fun stored s' _ hread hview => ⟨Except.mapError_eq_ok.mp hread, hview⟩)
    fun _ _ _ hbroken hview => ⟨hbroken, hview.elim (fun h => h) fun h => h⟩

/-- Saving a row puts it into its table. When it fails the row may be there all the same. -/
theorem wp_putExtraRecord (hs : steady s) (table : GroupTable) (key : Text) (value : ExtraValue) :
    Wp handle steady (StoreM.putExtraRecord wrap table key value) s
      (fun _ s' => view s' = (view s).updateRows table fun rows => rows.insert key value)
      fun _ s' => broken s' ∧ (view s' = view s ∨
        view s' = (view s).updateRows table fun rows => rows.insert key value) := by
  refine hf.wp_perform hs (fun _ _ => not_failed_of_read) (fun _ _ => failed_of_read)
    (fun _ s' _ _ hview => hview) fun _ _ _ hbroken hview => ⟨hbroken, hview⟩

end Relay.AnsweredBy

end

end Tangle
