import Tangle.Runtime.Service

/-!
# The relay

An event that reaches the relay passes the relay's own limits, its signature is verified, and it
passes the structure gate; what is a group's goes to the group service and the rest is stored as it
is. The relay is started on its store, takes events one at a time, and may be stopped between any
two operations of the store, in a start or in a write: `Step` is one of these, and a run is a
sequence of steps from an empty store (`Reachable`).
-/

namespace Tangle

open GroupEventView

/-! ## The entry -/

/-- The limits an event is held to (`BaseRelayLimits`). -/
structure BaseRelayLimits where
  maxEventTags : Nat
  maxContentLength : Nat
deriving DecidableEq

/-- `validate_pocket_event_shape`: the tags and the content are within the limits. -/
def validatePocketEventShape (event : PocketEvent) (limits : BaseRelayLimits) :
    Except BaseRelayError Unit :=
  if event.tags.length > limits.maxEventTags then
    .error (.invalid s!"event tag count exceeds runtime max_event_tags {limits.maxEventTags}")
  else if event.content.byteLen > limits.maxContentLength then
    .error (.invalid
      s!"event content length exceeds runtime max_content_length {limits.maxContentLength}")
  else
    .ok ()

/-- `verify_pocket_event_signature`. -/
def verifyPocketEventSignature (pocket : PocketTypes) (event : PocketEvent) :
    Except BaseRelayError Unit :=
  (pocket.verify event).mapError BaseRelayError.invalid

/-- A tag `-` protects an event: only its author may submit it. -/
def isPocketNip70ProtectedEvent (event : PocketEvent) : Bool :=
  event.tags.any fun tag => tag.head? == some (.text "-".toList)

/-- The reply to a submitted event. -/
structure OkMessage where
  eventId : EventId
  accepted : Bool
  message : String
deriving DecidableEq

/-- `ok_accepted`. -/
def okAccepted (eventId : EventId) (message : String) : OkMessage :=
  ⟨eventId, true, message⟩

/-- `ok_rejected`. -/
def okRejected (eventId : EventId) (message : String) : OkMessage :=
  ⟨eventId, false, message⟩

/-- `BaseRelayEventWrite`: the answer to an event, and the offsets of what was stored for it. -/
structure BaseRelayEventWrite where
  message : OkMessage
  storedOffsets : List StoreOffset
deriving DecidableEq

/-- `BaseRelayEventWrite::stored`. -/
def BaseRelayEventWrite.stored (message : OkMessage) (offsets : List StoreOffset) :
    BaseRelayEventWrite :=
  ⟨message, offsets⟩

/-- `BaseRelayEventWrite::unstored`. -/
def BaseRelayEventWrite.unstored (message : OkMessage) : BaseRelayEventWrite :=
  ⟨message, []⟩

/-- The checks before the structure gate. -/
def admitPocketEvent (pocket : PocketTypes) (limits : BaseRelayLimits) (event : PocketEvent)
    (auth : GroupAuthContext) : Except BaseRelayError Unit := do
  validatePocketEventShape event limits
  verifyPocketEventSignature pocket event
  if isPocketNip70ProtectedEvent event && !auth.contains event.pubkey then
    throw ⟨"auth-required", "protected event requires authenticated event author"⟩

/-! ## Taking an event -/

/-- The relay's step on an event: the service is there when groups are enabled. -/
abbrev RelayM (α : Type) : Type :=
  StatefulProg storeInterface (Option GroupServiceState) BaseRelayError α

/-- The group limits an event is classified under. -/
def groupLimits (groups : Option GroupServiceState) : GroupLimitsConfig :=
  groups.elim .default GroupServiceState.limits

/-- Runs a write of the service and returns its result; the service keeps the state it left. -/
def withGroups {α : Type} (p : WriteM α) (state : GroupServiceState) :
    RelayM (Except GroupEventWriteError α) :=
  ExceptT.mk fun _ => do
    let (result, state) ← p.run.run state
    return (.ok result, some state)

/-- Hands an event of a group to the group service. -/
def storeGroupEvent (pocket : PocketTypes) (event : PocketEvent) (eventClass : GroupEventClass)
    (auth : GroupAuthContext) : RelayM BaseRelayEventWrite := do
  match ← get with
  | none =>
    return .unstored (okRejected event.id
      "blocked: NIP-29 group events are not accepted before group service")
  | some state =>
    match ← withGroups (GroupServiceState.storeGroupPocketEvent pocket event eventClass auth)
        state with
    | .ok (.stored offsets) => return .stored (okAccepted event.id "") offsets
    | .ok .duplicate =>
      return .unstored (okAccepted event.id "duplicate: already have this event")
    | .error (.rejected error) => return .unstored (okRejected event.id error.prefixedMessage)
    | .error (.storage error) => throw error

/-- Stores an event that belongs to no group. -/
def storePlainEvent (event : PocketEvent) : BaseM BaseRelayEventWrite := do
  if (eventKind event).isEphemeral then
    return .unstored (okAccepted event.id "")
  else if (← StoreM.eventById BaseRelayError.error event.id).isSome then
    return .unstored (okAccepted event.id "duplicate: already have this event")
  else
    let offset ← StoreM.storeEvent BaseRelayError.error event
    return .stored (okAccepted event.id "") [offset]

/-- `handle_pocket_event`: the event is admitted, its structure is checked, and it is stored by
itself or by the group service. -/
def handlePocketEvent (pocket : PocketTypes) (limits : BaseRelayLimits) (event : PocketEvent)
    (auth : GroupAuthContext) : RelayM BaseRelayEventWrite := do
  match admitPocketEvent pocket limits event auth with
  | .error error => return .unstored (okRejected event.id error.prefixedMessage)
  | .ok () =>
    match validateClientGroupEventStructure event (groupLimits (← get)) with
    | .error error => return .unstored (okRejected event.id error.prefixedMessage)
    | .ok .nonGroup => liftProg (storePlainEvent event)
    | .ok eventClass => storeGroupEvent pocket event eventClass auth

/-! ## Runs -/

/-- A relay: the Pocket library it is linked with, what the library is relied on for, when its store
is flushed, and the limits it is started with. -/
structure Relay where
  pocket : PocketTypes
  codec : TagCodec
  lawful : pocket.Lawful codec
  db : PocketDb
  syncPolicy : PocketSyncPolicy
  limits : BaseRelayLimits

/-- A relay that runs on its store, with its service when groups are enabled, or is stopped. -/
inductive World where
  | up (groups : Option GroupServiceState) (store : PocketStore)
  | down (store : PocketStore)

/-- What happens to a relay. -/
inductive Happening where
  | started (config : GroupRuntimeConfig) (now : UnixTimestamp)
  /-- A start that failed or was stopped. -/
  | startStopped (config : GroupRuntimeConfig) (now : UnixTimestamp)
  | submitted (event : PocketEvent) (auth : GroupAuthContext)
      (result : Except BaseRelayError BaseRelayEventWrite)
  | submitStopped (event : PocketEvent) (auth : GroupAuthContext)
  | stopped

namespace Relay

variable (relay : Relay)

/-- The start of the group service on the relay's store. -/
def start (config : GroupRuntimeConfig) (now : UnixTimestamp) :
    BaseM (Option GroupServiceState) :=
  GroupServiceState.fromConfig relay.pocket config now

/-- The submission of an event by a reader with these keys. -/
def submit (event : PocketEvent) (auth : GroupAuthContext) : RelayM BaseRelayEventWrite :=
  handlePocketEvent relay.pocket relay.limits event auth

/-- A submitted event exists in Pocket's format, whose tag section is bounded. -/
inductive Step : World → Happening → World → Prop
  | started {config now store store' groups} :
      exec relay.db.handle (relay.start config now) store = (.ok groups, store') →
        Step (.down store) (.started config now) (.up groups store')
  | startStopped {config now store store'} :
      store' ∈ (relay.start config now).run.states relay.db.handle store →
        Step (.down store) (.startStopped config now) (.down store')
  | submitted {event auth groups store result groups' store'} :
      event.Fits relay.codec →
        execState relay.db.handle (relay.submit event auth) groups store =
          (result, groups', store') →
        Step (.up groups store) (.submitted event auth result) (.up groups' store')
  | submitStopped {event auth groups store store'} :
      event.Fits relay.codec →
        store' ∈ ((relay.submit event auth).run.run groups).states relay.db.handle store →
        Step (.up groups store) (.submitStopped event auth) (.down store')
  | stopped {groups store} : Step (.up groups store) .stopped (.down store)

/-- What is reached from an empty store by steps that `allowed` admits. -/
inductive Reaches (allowed : World → Happening → Prop) : World → Prop
  | empty : Reaches allowed (.down .empty)
  | step {w happening w'} : Reaches allowed w → allowed w happening → relay.Step w happening w' →
      Reaches allowed w'

/-- Everything that may happen, in any order. -/
def Reachable : World → Prop :=
  relay.Reaches fun _ _ => True

variable {relay}

/-- What holds of an empty store and is kept by every allowed step holds wherever they lead. -/
theorem Reaches.invariant {allowed : World → Happening → Prop} {I : World → Prop}
    (hempty : I (.down .empty))
    (hstep : ∀ {w happening w'}, I w → allowed w happening → relay.Step w happening w' → I w')
    {w : World} (hw : relay.Reaches allowed w) : I w := by
  induction hw with
  | empty => exact hempty
  | step _ hallowed hs ih => exact hstep ih hallowed hs

end Relay

end Tangle
