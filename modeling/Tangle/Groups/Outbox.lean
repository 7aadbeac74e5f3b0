import Mathlib.Order.WithBot
import Mathlib.Data.List.Sort
import Tangle.Groups.Projection

/-!
# The outbox

What the relay owes for an accepted event is one record for each effect, under a key that names the
source event, the effect and the group. A record is pending until its generated event is stored; a
record that failed may be tried again. Merging a record that is there already succeeds only when
the payloads agree.
-/

namespace Tangle

/-- What an accepted event makes the relay generate. -/
inductive GroupOutboxEffect where
  | metadataSnapshot | adminListSnapshot | memberListSnapshot | roleListSnapshot
  | state39004Snapshot | joinAccepted | leaveAccepted
deriving DecidableEq

namespace GroupOutboxEffect

/-- `GroupOutboxEffect::as_str`: the label that the key of a record carries. -/
def asStr : GroupOutboxEffect → String
  | metadataSnapshot => "metadata_snapshot"
  | adminListSnapshot => "admin_list_snapshot"
  | memberListSnapshot => "member_list_snapshot"
  | roleListSnapshot => "role_list_snapshot"
  | state39004Snapshot => "state_39004_snapshot"
  | joinAccepted => "join_accepted"
  | leaveAccepted => "leave_accepted"

/-- `from_label`: any text that is no label is an error. -/
def fromLabel (value : String) : Except GroupError GroupOutboxEffect :=
  match value with
  | "metadata_snapshot" => .ok metadataSnapshot
  | "admin_list_snapshot" => .ok adminListSnapshot
  | "member_list_snapshot" => .ok memberListSnapshot
  | "role_list_snapshot" => .ok roleListSnapshot
  | "state_39004_snapshot" => .ok state39004Snapshot
  | "join_accepted" => .ok joinAccepted
  | "leave_accepted" => .ok leaveAccepted
  | _ => .error (.internal s!"unknown outbox effect {value}")

/-- An effect is read back from its label. -/
@[simp] theorem fromLabel_asStr (effect : GroupOutboxEffect) :
    fromLabel effect.asStr = .ok effect := by
  cases effect <;> rfl

/-- The place of an effect in the declaration, which orders the keys. -/
def index : GroupOutboxEffect → Nat
  | metadataSnapshot => 0
  | adminListSnapshot => 1
  | memberListSnapshot => 2
  | roleListSnapshot => 3
  | state39004Snapshot => 4
  | joinAccepted => 5
  | leaveAccepted => 6

/-- No two effects have the same place in the order. -/
theorem index_injective : Function.Injective index := by
  intro a b h
  cases a <;> cases b <;> first | rfl | cases h

instance : LinearOrder GroupOutboxEffect :=
  LinearOrder.lift' index index_injective

end GroupOutboxEffect

/-- The name of a record. -/
structure GroupOutboxKey where
  sourceEventId : EventId
  effect : GroupOutboxEffect
  groupId : GroupId
  targetPubkey : Option PublicKeyHex
deriving DecidableEq

namespace GroupOutboxKey

/-- The components, compared one after another; no target comes before every target. -/
def toLexKey (key : GroupOutboxKey) :
    EventId ×ₗ GroupOutboxEffect ×ₗ GroupId ×ₗ WithBot PublicKeyHex :=
  toLex (key.sourceEventId, toLex (key.effect, toLex (key.groupId, key.targetPubkey)))

/-- The tuple that a key is ordered by names the key. -/
theorem toLexKey_injective : Function.Injective toLexKey := by
  intro ⟨a, b, c, d⟩ ⟨a', b', c', d'⟩ h
  cases h
  rfl

instance : LinearOrder GroupOutboxKey :=
  LinearOrder.lift' toLexKey toLexKey_injective

/-- `GroupOutboxKey::storage_key`: the four parts, with a separator between them. -/
def storageKey (key : GroupOutboxKey) : Text :=
  key.sourceEventId.text ++ '\x00' :: key.effect.asStr.toList ++ '\x00' :: key.groupId.text ++
    '\x00' :: (key.targetPubkey.elim [] Hex64.text)

end GroupOutboxKey

/-- How far a record has come. -/
inductive GroupOutboxStatus where
  | pending
  | stored (generatedEventId : EventId)
  | skipped (reason : String)
  | failed (retryable : Bool)
deriving DecidableEq

/-- What a generated event will say. -/
structure GroupOutboxPayload where
  generatedKind : Nat
  generatedCreatedAt : UnixTimestamp
  tags : List (List Text)
  content : Text
deriving DecidableEq

/-- A record of the outbox. -/
structure GroupOutboxRecord where
  key : GroupOutboxKey
  status : GroupOutboxStatus
  payload : GroupOutboxPayload
  attempts : Nat
  lastError : Option String
deriving DecidableEq

namespace GroupOutboxRecord

/-- `GroupOutboxRecord::pending`: a record that no attempt has been made at. -/
def pending (key : GroupOutboxKey) (payload : GroupOutboxPayload) : GroupOutboxRecord :=
  ⟨key, .pending, payload, 0, none⟩

/-- `mark_stored`: the event was generated and stored under this id. -/
def markStored (record : GroupOutboxRecord) (generatedEventId : EventId) : GroupOutboxRecord :=
  { record with status := .stored generatedEventId, lastError := none }

/-- `mark_skipped`: nothing is left to generate, and why. -/
def markSkipped (record : GroupOutboxRecord) (reason : String) : GroupOutboxRecord :=
  { record with status := .skipped reason }

/-- The attempts are counted in 32 bits and stop at the largest number. -/
def markFailed (record : GroupOutboxRecord) (retryable : Bool) (error : String) :
    GroupOutboxRecord :=
  { record with
    status := .failed retryable
    attempts := min (record.attempts + 1) (2 ^ 32 - 1)
    lastError := some error }

/-- `is_retryable`: pending, or failed in a way that allows another attempt. -/
def isRetryable (record : GroupOutboxRecord) : Bool :=
  match record.status with
  | .pending | .failed true => true
  | _ => false

/-- A record keeps its key when it is marked stored. -/
@[simp] theorem key_markStored (record : GroupOutboxRecord) (id : EventId) :
    (record.markStored id).key = record.key := rfl

/-- A record keeps its key when it is marked skipped. -/
@[simp] theorem key_markSkipped (record : GroupOutboxRecord) (reason : String) :
    (record.markSkipped reason).key = record.key := rfl

/-- A record keeps its key when it is marked failed. -/
@[simp] theorem key_markFailed (record : GroupOutboxRecord) (retryable : Bool) (error : String) :
    (record.markFailed retryable error).key = record.key := rfl

/-- A record keeps its payload when it is marked stored. -/
@[simp] theorem payload_markStored (record : GroupOutboxRecord) (id : EventId) :
    (record.markStored id).payload = record.payload := rfl

/-- A record keeps its payload when it is marked skipped. -/
@[simp] theorem payload_markSkipped (record : GroupOutboxRecord) (reason : String) :
    (record.markSkipped reason).payload = record.payload := rfl

/-- A record keeps its payload when it is marked failed. -/
@[simp] theorem payload_markFailed (record : GroupOutboxRecord) (retryable : Bool)
    (error : String) : (record.markFailed retryable error).payload = record.payload := rfl

/-- A stored record is not tried again. -/
@[simp] theorem isRetryable_markStored (record : GroupOutboxRecord) (id : EventId) :
    (record.markStored id).isRetryable = false := rfl

/-- A skipped record is not tried again. -/
@[simp] theorem isRetryable_markSkipped (record : GroupOutboxRecord) (reason : String) :
    (record.markSkipped reason).isRetryable = false := rfl

/-- A failed record is tried again when its failure allows it. -/
@[simp] theorem isRetryable_markFailed (record : GroupOutboxRecord) (retryable : Bool)
    (error : String) : (record.markFailed retryable error).isRetryable = retryable := by
  cases retryable <;> rfl

/-- The place of a record in a replay. -/
def replayKey (record : GroupOutboxRecord) :
    GroupId ×ₗ UnixTimestamp ×ₗ EventId ×ₗ GroupOutboxEffect ×ₗ WithBot PublicKeyHex :=
  toLex (record.key.groupId, toLex (record.payload.generatedCreatedAt,
    toLex (record.key.sourceEventId, toLex (record.key.effect, record.key.targetPubkey))))

end GroupOutboxRecord

/-- The records by key. -/
structure GroupOutbox where
  records : BTreeMap GroupOutboxKey GroupOutboxRecord

namespace GroupOutbox

/-- `GroupOutbox::new`: no record yet. -/
def new : GroupOutbox :=
  ⟨∅⟩

/-- `GroupOutbox::get`. -/
def get (outbox : GroupOutbox) (key : GroupOutboxKey) : Option GroupOutboxRecord :=
  outbox.records[key]?

/-- `GroupOutbox::update`: the record takes the place of any other with its key. -/
def update (outbox : GroupOutbox) (record : GroupOutboxRecord) : GroupOutbox :=
  ⟨outbox.records.insert record.key record⟩

/-- Inserts a record unless one of the same payload is there; says whether it was inserted. -/
def mergeIdempotent (outbox : GroupOutbox) (record : GroupOutboxRecord) :
    Except GroupError (Bool × GroupOutbox) :=
  match outbox.get record.key with
  | some existing =>
    if existing.payload = record.payload then
      .ok (false, outbox)
    else
      .error (.internal "outbox record key already exists with different payload")
  | none => .ok (true, outbox.update record)

/-- The records that are retryable and satisfy a test, in the order of their keys. -/
def replayPlanMatching (outbox : GroupOutbox) (keep : GroupOutboxRecord → Bool) :
    List GroupOutboxRecord :=
  ((outbox.records.toList.map Prod.snd).filter fun record =>
    record.isRetryable && keep record).insertionSort fun a b => a.replayKey ≤ b.replayKey

/-- `replay_plan`: every retryable record. -/
def replayPlan (outbox : GroupOutbox) : List GroupOutboxRecord :=
  outbox.replayPlanMatching fun _ => true

/-- `replay_plan_for_group`: the retryable records of one group. -/
def replayPlanForGroup (outbox : GroupOutbox) (groupId : GroupId) : List GroupOutboxRecord :=
  outbox.replayPlanMatching fun record => record.key.groupId == groupId

/-- An update changes the record of its own key and no other. -/
theorem get_update (outbox : GroupOutbox) (record : GroupOutboxRecord) (key : GroupOutboxKey) :
    (outbox.update record).get key = if record.key = key then some record else outbox.get key := by
  unfold update get
  rw [BTreeMap.getElem?_insert]

/-- A merge that succeeds finds a record of the same key and payload, and changes nothing, or it
finds none and takes the record in. -/
theorem mergeIdempotent_cases {outbox outbox' : GroupOutbox} {record : GroupOutboxRecord}
    {inserted : Bool} (h : outbox.mergeIdempotent record = .ok (inserted, outbox')) :
    (inserted = false ∧ outbox' = outbox ∧
      ∃ existing, outbox.get record.key = some existing ∧ existing.payload = record.payload) ∨
    (inserted = true ∧ outbox' = outbox.update record ∧ outbox.get record.key = none) := by
  unfold mergeIdempotent at h
  cases hget : outbox.get record.key with
  | some existing =>
    rw [hget] at h
    dsimp only at h
    split at h
    · next hpayload =>
      cases h
      exact .inl ⟨rfl, rfl, existing, rfl, hpayload⟩
    · cases h
  | none =>
    rw [hget] at h
    cases h
    exact .inr ⟨rfl, rfl, rfl⟩

/-- Two outboxes that answer every key alike are equal. -/
theorem ext {outbox outbox' : GroupOutbox} (h : ∀ key, outbox.get key = outbox'.get key) :
    outbox = outbox' := by
  obtain ⟨records⟩ := outbox
  obtain ⟨records'⟩ := outbox'
  exact congrArg GroupOutbox.mk (BTreeMap.ext h)

/-- A replay holds the retryable records that are included, and no others. -/
theorem mem_replayPlanMatching {outbox : GroupOutbox} {keep : GroupOutboxRecord → Bool}
    {record : GroupOutboxRecord} :
    record ∈ outbox.replayPlanMatching keep ↔
      (∃ key, outbox.get key = some record) ∧ record.isRetryable = true ∧
        keep record = true := by
  unfold replayPlanMatching
  rw [List.mem_insertionSort, List.mem_filter, List.mem_map, Bool.and_eq_true]
  refine and_congr ⟨fun ⟨⟨key, value⟩, hmem, hvalue⟩ => ?_, fun ⟨key, hkey⟩ => ?_⟩ Iff.rfl
  · cases hvalue
    exact ⟨key, BTreeMap.mem_toList.mp hmem⟩
  · exact ⟨(key, record), BTreeMap.mem_toList.mpr hkey, rfl⟩

end GroupOutbox

end Tangle
