import Tangle.Runtime.Planning
import Tangle.Runtime.Storage

/-!
# The group service

The service accepts a client's event, stores it, applies it to its projection, saves the group's
rows, plans the outbox and stores the generated events, which are applied and saved in turn. Its
own state is kept when a step fails: a write that ends in a storage error has stored the event and
may have changed the projection and the outbox.

At a start the service loads its storage, derives from the stored events the records the outbox
should hold, and stores whatever is still owed.
-/

namespace Tangle

open GroupEventView

/-- What the service keeps in memory. -/
structure GroupServiceState where
  builder : GroupGeneratedEventBuilder
  authority : GroupAuthority
  projection : GroupProjection
  outbox : GroupOutbox
  policy : GroupPolicyConfig
  limits : GroupLimitsConfig
  memberSnapshotCap : UInt32
  outboxReplayBatchCap : UInt32

/-- A step of the service. -/
abbrev ServiceM (α : Type) : Type :=
  StatefulProg storeInterface GroupServiceState BaseRelayError α

/-- A check of the group engine inside a step. -/
def ServiceM.group {α : Type} (x : Except GroupError α) : ServiceM α :=
  liftM (x.mapError BaseRelayError.ofGroup)

/-- A store program inside a step. -/
def ServiceM.store {α : Type} (p : BaseM α) : ServiceM α :=
  liftProg p

/-- What became of a write. -/
inductive GroupEventWrite where
  | stored (offsets : List StoreOffset)
  | duplicate
deriving DecidableEq

/-- `GroupEventWriteError`: whether the event was refused for what it is, or the store failed. -/
inductive GroupEventWriteError where
  | rejected (error : GroupError)
  | storage (error : BaseRelayError)
deriving DecidableEq

/-- A write of the service. -/
abbrev WriteM (α : Type) : Type :=
  StatefulProg storeInterface GroupServiceState GroupEventWriteError α

/-! ## Generated events -/

/-- The group that an event is of, if it is of one. -/
def classGroupId : GroupEventClass → Option GroupId
  | .moderation _ groupId | .normal groupId | .relayGeneratedSnapshot _ groupId => some groupId
  | .nonGroup => none

/-- `generated_event_already_stored`: looked for by its id, and then among all the events. -/
def generatedEventAlreadyStored (eventId : EventId) : BaseM Bool := do
  if (← StoreM.eventById BaseRelayError.error eventId).isSome then
    return true
  else
    let stored ← StoreM.scanEventsAfter BaseRelayError.error none
    return stored.any fun stored => stored.event.id == eventId

namespace GroupServiceState

/-- `GeneratedGroupStorageEvent::build`. -/
def buildGenerated (pocket : PocketTypes) (builder : GroupGeneratedEventBuilder)
    (payload : GroupOutboxPayload) : Except BaseRelayError PocketEvent :=
  (builder.signPayloadPocket pocket payload).mapError BaseRelayError.ofGroup

/-- `GeneratedGroupStorageEvent::event_id`. -/
def generatedEventId (event : PocketEvent) : Except BaseRelayError EventId :=
  (EventId.new (idHex event)).mapError BaseRelayError.error

/-- `store_generated_event`: the event is signed, stored where it is not yet, and the record
marked. -/
def storeGeneratedEvent (pocket : PocketTypes) (record : GroupOutboxRecord) :
    ServiceM (EventId × Option StoreOffset) := do
  let state ← get
  let generated ← liftM (buildGenerated pocket state.builder record.payload)
  let eventId ← liftM (generatedEventId generated)
  if ← ServiceM.store (generatedEventAlreadyStored generated.id) then
    return (eventId, none)
  else
    let offset ← ServiceM.store (StoreM.storeEvent BaseRelayError.error generated)
    let (_, projection) ← ServiceM.group
      (state.projection.applyCanonicalEvent generated offset state.limits)
    set { state with projection := projection }
    ServiceM.store (persistGroupProjection projection record.key.groupId)
    return (eventId, some offset)

/-- Replaces a record in memory and in the table. -/
def saveRecord (record : GroupOutboxRecord) : ServiceM Unit := do
  modify fun state => { state with outbox := state.outbox.update record }
  ServiceM.store (persistOutboxRecord record)

/-- Stores the generated event of a record. A failure is recorded as one to try again, and passed
on. -/
def materializeRecord (pocket : PocketTypes) (record : GroupOutboxRecord) :
    ServiceM (Option StoreOffset) := do
  if record.key.effect = .roleListSnapshot ∨ record.key.effect = .state39004Snapshot then
    saveRecord (record.markSkipped "generated group effect is not supported")
    return none
  else
    match ← attempt (storeGeneratedEvent pocket record) with
    | .ok (generatedEventId, storedOffset) =>
      saveRecord (record.markStored generatedEventId)
      return storedOffset
    | .error error =>
      saveRecord (record.markFailed true error.prefixedMessage)
      throw error

/-- The records of a plan are worked off in order, each failure marked and passed over. -/
def materializeRecords (pocket : PocketTypes) : List GroupOutboxRecord →
    ServiceM (List StoreOffset)
  | [] => return []
  | record :: rest => do
    let offset ← materializeRecord pocket record
    let offsets ← materializeRecords pocket rest
    return offset.toList ++ offsets

/-- Takes batches of the plan until it is empty. Each batch makes a record of the plan final or
fails, so a loop with more steps than the plan has records ends with an empty plan. -/
def materializeLoop (pocket : PocketTypes) (plan : GroupOutbox → List GroupOutboxRecord) :
    Nat → ServiceM (List StoreOffset)
  | 0 => return []
  | steps + 1 => do
    let state ← get
    let records := (plan state.outbox).take state.outboxReplayBatchCap.toNat
    if records.isEmpty then
      return []
    else
      let offsets ← materializeRecords pocket records
      let more ← materializeLoop pocket plan steps
      return offsets ++ more

/-- The records that a plan selects from the outbox are worked off. -/
def materializeWith (pocket : PocketTypes) (plan : GroupOutbox → List GroupOutboxRecord) :
    ServiceM (List StoreOffset) := do
  let state ← get
  materializeLoop pocket plan ((plan state.outbox).length + 1)

/-- `materialize_outbox`: every record that waits. -/
def materializeOutbox (pocket : PocketTypes) : ServiceM (List StoreOffset) :=
  materializeWith pocket GroupOutbox.replayPlan

/-- `materialize_outbox_for_group`: those of one group. -/
def materializeOutboxForGroup (pocket : PocketTypes) (groupId : GroupId) :
    ServiceM (List StoreOffset) :=
  materializeWith pocket fun outbox => outbox.replayPlanForGroup groupId

/-! ## Writes -/

/-- The check of a deletion's target, which must be a stored event of the group. -/
def checkDeleteEventTarget (state : GroupServiceState) (event : PocketEvent) (groupId : GroupId) :
    StoreM GroupError Unit := do
  let targetId ← liftM (deleteTargetEventId event)
  match ← StoreM.eventById GroupError.internal targetId with
  | none => throw (.invalid .malformedTargetTag "delete target event is unavailable")
  | some target =>
    let targetClass ← liftM (classifyGroupEvent target state.limits)
    if targetClass.groupId ≠ some groupId then
      throw (.invalid .malformedTargetTag "delete target event is not in group")

/-- `check_runtime_write_constraints`: the target of a deletion is looked up in the store. -/
def checkRuntimeWriteConstraints (state : GroupServiceState) (event : PocketEvent)
    (eventClass : GroupEventClass) : StoreM GroupError Unit :=
  match eventClass with
  | .moderation kind groupId =>
    if kind.value = kindGroupDeleteEvent then
      checkDeleteEventTarget state event groupId
    else
      pure ()
  | _ => pure ()

/-- The policy that writes are checked against, from the configuration. -/
def writePolicy (state : GroupServiceState) : GroupWritePolicy :=
  ⟨state.projection, state.authority, state.policy⟩

/-- `check_event`: the constraints of the runtime and then those of the policy. -/
def checkEvent (state : GroupServiceState) (event : PocketEvent) (eventClass : GroupEventClass)
    (auth : GroupAuthContext) : StoreM GroupError Unit := do
  let _ ← (liftM (state.writePolicy.checkEvent event eventClass auth) :
    StoreM GroupError GroupWriteDecision)
  checkRuntimeWriteConstraints state event eventClass

/-- `plan_outbox_records`: what follows from the event, by the projection after it. -/
def planOutboxRecords (pocket : PocketTypes) (state : GroupServiceState) (event : PocketEvent)
    (eventClass : GroupEventClass) (beforeMembershipAdmin : Option Bool) :
    Except GroupError (List GroupOutboxRecord) :=
  planGroupOutboxRecords pocket event eventClass state.projection state.authority
    state.memberSnapshotCap beforeMembershipAdmin

/-- Merges a planned record, and saves it when it is new. -/
def mergeRecord (record : GroupOutboxRecord) : ServiceM Unit := do
  let state ← get
  let (inserted, outbox) ← ServiceM.group (state.outbox.mergeIdempotent record)
  set { state with outbox := outbox }
  if inserted then
    ServiceM.store (persistOutboxRecord record)

/-- Each record is merged, and saved when it is new. -/
def mergeRecords (records : List GroupOutboxRecord) : ServiceM Unit :=
  forM records mergeRecord

/-- `if let Some(group_id) = class_group_id(class) { self.persist_group_projection(..)? }` -/
def persistClassProjection (projection : GroupProjection) (eventClass : GroupEventClass) :
    BaseM Unit :=
  match classGroupId eventClass with
  | some groupId => persistGroupProjection projection groupId
  | none => pure ()

/-- The replay that ends a write: only of the event's own group. -/
def materializeClass (pocket : PocketTypes) (eventClass : GroupEventClass) :
    ServiceM (List StoreOffset) :=
  match classGroupId eventClass with
  | some groupId => materializeOutboxForGroup pocket groupId
  | none => return []

/-- Merges what the event owes and stores it. -/
def generateRecords (pocket : PocketTypes) (event : PocketEvent) (eventClass : GroupEventClass)
    (beforeMembershipAdmin : Option Bool) : ServiceM (List StoreOffset) := do
  let state ← get
  let records ← ServiceM.group
    (state.planOutboxRecords pocket event eventClass beforeMembershipAdmin)
  mergeRecords records
  materializeClass pocket eventClass

/-- The steps after the source event is stored. -/
def afterSourceEventStored (pocket : PocketTypes) (event : PocketEvent)
    (eventClass : GroupEventClass) (storeOffset : StoreOffset) : ServiceM (List StoreOffset) := do
  let state ← get
  let beforeMembershipAdmin ← ServiceM.group
    (membershipAdminSnapshotState state.projection event eventClass)
  let (_, projection) ← ServiceM.group
    (state.projection.applyCanonicalEvent event storeOffset state.limits)
  set { state with projection := projection }
  ServiceM.store (persistClassProjection projection eventClass)
  generateRecords pocket event eventClass beforeMembershipAdmin

/-- `store_group_pocket_event`: the event is checked and, unless it is there, stored; then it is
applied and its snapshots generated. -/
def storeGroupPocketEvent (pocket : PocketTypes) (event : PocketEvent)
    (eventClass : GroupEventClass) (auth : GroupAuthContext) : WriteM GroupEventWrite := do
  let state ← get
  liftProg (ExceptT.adapt GroupEventWriteError.rejected
    (state.checkEvent event eventClass auth))
  let present ← liftProg (StoreM.eventById (fun error => .storage (.error error)) event.id)
  if present.isSome then
    return .duplicate
  else
    let storeOffset ← liftProg (StoreM.storeEvent (fun error => .storage (.error error)) event)
    let offsets ← ExceptT.adapt GroupEventWriteError.storage
      (afterSourceEventStored pocket event eventClass storeOffset)
    return .stored (storeOffset :: offsets)

/-! ## Reads -/

/-- `read_gate`. -/
def readGate (state : GroupServiceState) : GroupReadGate :=
  ⟨state.projection, state.authority⟩

/-- Whether one of the keys of a list may read the event, in the order of the list. -/
def visibleToAny (state : GroupServiceState) (event : PocketEvent) :
    List PublicKeyHex → Except GroupError Bool
  | [] => .ok false
  | pubkey :: rest => do
    if (← state.readGate.screenEvent event (some pubkey) state.limits) = .visible then
      return true
    else
      visibleToAny state event rest

/-- `event_visible_to_auth`: visible to any of the keys, or to a reader without one. -/
def eventVisibleToAuth (state : GroupServiceState) (event : PocketEvent)
    (auth : GroupAuthContext) : Except GroupError Bool := do
  if auth.authenticatedPubkeys.isEmpty then
    return (← state.readGate.screenEvent event none state.limits) = .visible
  else
    visibleToAny state event auth.authenticatedPubkeys.toList

/-! ## The start -/

/-- Replays one event on a projection of its own and merges what the event owes. -/
def deriveRecordsOf (pocket : PocketTypes) (projection : GroupProjection)
    (item : CanonicalGroupEvent) : ServiceM GroupProjection := do
  let state ← get
  let eventClass ← ServiceM.group (classifyGroupEvent item.event state.limits)
  let beforeMembershipAdmin ← ServiceM.group
    (membershipAdminSnapshotState projection item.event eventClass)
  let (_, projection) ← ServiceM.group
    (projection.applyCanonicalEvent item.event item.storeOffset state.limits)
  if pubkeyHex item.event = state.builder.relayPubkey.text then
    return projection
  else
    let records ← ServiceM.group (planGroupOutboxRecords pocket item.event eventClass projection
      state.authority state.memberSnapshotCap beforeMembershipAdmin)
    mergeRecords records
    return projection

/-- `derive_missing_outbox_records`: the events of the store are replayed on a new projection, and
the records they lead to are merged. -/
def deriveMissingOutboxRecords (pocket : PocketTypes) : ServiceM Unit := do
  let state ← get
  let scan ← ServiceM.store (scanCanonicalGroupEvents state.limits)
  let _ ← (sortByTuple scan.events).foldlM (deriveRecordsOf pocket) GroupProjection.new
  return ()

/-- The state a configuration and the loaded storage make. -/
def ofStorage (config : GroupRuntimeConfig) (signer : RelaySigner) (storage : GroupStorageState) :
    GroupServiceState where
  builder := ⟨signer⟩
  authority := .new config.ownerPubkeys config.adminPubkeys
  projection := storage.projection
  outbox := storage.outbox
  policy := config.policy
  limits := config.limits
  memberSnapshotCap := config.limits.maxMemberListPubkeys
  outboxReplayBatchCap := config.limits.maxOutboxReplayBatch

/-- The steps of a start after the storage is loaded. -/
def finishStart (pocket : PocketTypes) : ServiceM Unit := do
  deriveMissingOutboxRecords pocket
  let _ ← materializeOutbox pocket
  return ()

/-- Runs a step from a state and returns the state it leaves, when it succeeds. -/
def runFrom (step : ServiceM Unit) (state : GroupServiceState) : BaseM GroupServiceState :=
  ExceptT.mk do
    let (result, state) ← step.run.run state
    return result.map fun _ => state

/-- The signer of the configured secret. -/
def configuredSigner (pocket : PocketTypes) (config : GroupRuntimeConfig) :
    Except BaseRelayError RelaySigner :=
  match config.relaySecret with
  | some relaySecret =>
    (RelaySigner.fromSecretHex pocket relaySecret).mapError BaseRelayError.invalid
  | none => .error (.invalid "groups.relay_secret is required")

/-- Starts the service on a store; a disabled configuration has none. -/
def fromConfig (pocket : PocketTypes) (config : GroupRuntimeConfig) (now : UnixTimestamp) :
    BaseM (Option GroupServiceState) :=
  if !config.enabled then
    return none
  else do
    let signer ← liftM (configuredSigner pocket config)
    let storage ← loadGroupStorage config.limits now
    return some (← runFrom (finishStart pocket) (ofStorage config signer storage))

end GroupServiceState

end Tangle
