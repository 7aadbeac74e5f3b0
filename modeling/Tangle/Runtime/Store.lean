import Tangle.Lib.Keeps
import Tangle.Groups.Documents
import Tangle.Pocket.EventScans

/-!
# The Pocket store

The relay reaches its store through seven operations: an event map that only grows, and three
tables of rows. Which events the map refuses, which event it finds under an id and how long an
event is belong to the Pocket database, so they are parameters (`PocketDb`); the rest of what the
store does is `PocketDb.handle`.

An event lies at the first offset after its predecessor that is a multiple of eight, so later
events have greater offsets (`nextOffset_gt`).
-/

namespace Tangle

/-! ## Operations -/

/-- The relay's tables. -/
inductive GroupTable where
  | projection | outbox | checkpoint
deriving DecidableEq

/-- The operations of the store. -/
inductive StoreOp where
  | eventById (id : EventId)
  | storeEvent (event : PocketEvent)
  | scanEventsAfter (lastOffset : Option StoreOffset)
  | getExtraRecord (table : GroupTable) (key : Text)
  | putExtraRecord (table : GroupTable) (key : Text) (value : ExtraValue)
  | deleteExtraRecord (table : GroupTable) (key : Text)
  | scanExtraRecords (table : GroupTable)

/-- The reply of an operation: a store error, or what was asked for. -/
def StoreOp.Reply : StoreOp → Type
  | eventById _ => Except String (Option PocketEvent)
  | storeEvent _ => Except String StoreOffset
  | scanEventsAfter _ => Except String (List StoredEvent)
  | getExtraRecord _ _ => Except String (Option ExtraValue)
  | putExtraRecord _ _ _ => Except String Unit
  | deleteExtraRecord _ _ => Except String Unit
  | scanExtraRecords _ => Except String (List (Text × ExtraValue))

/-- The store as an interface: each operation with the reply it can give. -/
def storeInterface : Interface :=
  ⟨StoreOp, StoreOp.Reply⟩

/-- A program over the store that may fail. -/
abbrev StoreM (ε α : Type) : Type :=
  ExceptT ε (Prog storeInterface) α

namespace StoreM

/-- Performs an operation, passing its error on under `wrap`. -/
def call {ε α : Type} (wrap : String → ε) (o : StoreOp) (h : o.Reply = Except String α) :
    StoreM ε α :=
  ExceptT.mk ((fun reply => (cast h reply).mapError wrap) <$> Prog.perform (E := storeInterface) o)

variable {ε : Type} (wrap : String → ε)

/-- `PocketStoreHandle::event_by_id`. -/
def eventById (id : EventId) : StoreM ε (Option PocketEvent) :=
  call wrap (.eventById id) rfl

/-- `store_event`. -/
def storeEvent (event : PocketEvent) : StoreM ε StoreOffset :=
  call wrap (.storeEvent event) rfl

/-- `scan_events_after`, from the beginning when no offset is given. -/
def scanEventsAfter (lastOffset : Option StoreOffset) : StoreM ε (List StoredEvent) :=
  call wrap (.scanEventsAfter lastOffset) rfl

/-- `get_extra_record`. -/
def getExtraRecord (table : GroupTable) (key : Text) : StoreM ε (Option ExtraValue) :=
  call wrap (.getExtraRecord table key) rfl

/-- `put_extra_record`. -/
def putExtraRecord (table : GroupTable) (key : Text) (value : ExtraValue) : StoreM ε Unit :=
  call wrap (.putExtraRecord table key value) rfl

/-- `delete_extra_record`. -/
def deleteExtraRecord (table : GroupTable) (key : Text) : StoreM ε Unit :=
  call wrap (.deleteExtraRecord table key) rfl

/-- `scan_extra_records`: the rows of a table in the order of their keys. -/
def scanExtraRecords (table : GroupTable) : StoreM ε (List (Text × ExtraValue)) :=
  call wrap (.scanExtraRecords table) rfl

end StoreM

/-- When the store flushes what it has written to disk. -/
inductive PocketSyncPolicy where
  | flushOnWrite | flushOnShutdown
deriving DecidableEq

/-- What follows a write that has been committed: the flush, if there is one, which may fail. -/
def PocketSyncPolicy.syncAfterWrite (sync : Except String Unit) :
    PocketSyncPolicy → Except String Unit
  | .flushOnWrite => sync
  | .flushOnShutdown => .ok ()

/-! ## The database -/

/-- What the Pocket database decides. -/
structure PocketDb where
  /-- The error with which the event map refuses an event. -/
  refuses : List StoredEvent → PocketEvent → Option String
  /-- The event found under an id. -/
  findById : List StoredEvent → EventId → Option PocketEvent
  /-- The bytes an event takes. -/
  eventLen : PocketEvent → Nat
  eventLen_pos : ∀ event, 0 < eventLen event

/-- What the store holds: the events in the order they came, and the rows of the tables. -/
structure PocketStore where
  events : List StoredEvent
  projection : BTreeMap Text ExtraValue
  outbox : BTreeMap Text ExtraValue
  checkpoint : BTreeMap Text ExtraValue

namespace PocketStore

/-- A store that holds nothing yet. -/
def empty : PocketStore :=
  ⟨[], ∅, ∅, ∅⟩

/-- The rows of a table. -/
def rows (store : PocketStore) : GroupTable → BTreeMap Text ExtraValue
  | .projection => store.projection
  | .outbox => store.outbox
  | .checkpoint => store.checkpoint

/-- Changes the rows of a table. -/
def updateRows (store : PocketStore) (table : GroupTable)
    (f : BTreeMap Text ExtraValue → BTreeMap Text ExtraValue) : PocketStore :=
  match table with
  | .projection => { store with projection := f store.projection }
  | .outbox => { store with outbox := f store.outbox }
  | .checkpoint => { store with checkpoint := f store.checkpoint }

end PocketStore

namespace PocketDb

variable (db : PocketDb)

/-- The offset behind an event: its own and its length. -/
def nextEventOffset (stored : StoredEvent) : StoreOffset :=
  alignEventOffset (stored.storeOffset + db.eventLen stored.event)

/-- Where the next event goes. -/
def nextOffset (events : List StoredEvent) : StoreOffset :=
  events.getLast?.elim eventMapStartOffset db.nextEventOffset

/-- The events after an offset, which must be that of an event. -/
def scanAfter (events : List StoredEvent) :
    Option StoreOffset → Except String (List StoredEvent)
  | none => .ok events
  | some offset =>
    if events.any fun stored => stored.storeOffset == offset then
      .ok (events.filter fun stored => offset < stored.storeOffset)
    else
      .error "no event at the offset"

/-- Appends an event, unless the database refuses it. -/
def storeEvent (event : PocketEvent) (store : PocketStore) :
    Except String StoreOffset × PocketStore :=
  match db.refuses store.events event with
  | some error => (.error error, store)
  | none =>
    let offset := db.nextOffset store.events
    (.ok offset, { store with events := store.events ++ [⟨event, offset⟩] })

/-- Answers the operations. -/
def handle : Handler storeInterface PocketStore
  | .eventById id, store => (.ok (db.findById store.events id), store)
  | .storeEvent event, store => db.storeEvent event store
  | .scanEventsAfter lastOffset, store => (scanAfter store.events lastOffset, store)
  | .getExtraRecord table key, store => (.ok (store.rows table)[key]?, store)
  | .putExtraRecord table key value, store =>
    (.ok (), store.updateRows table fun rows => rows.insert key value)
  | .deleteExtraRecord table key, store =>
    (.ok (), store.updateRows table fun rows => rows.erase key)
  | .scanExtraRecords table, store => (.ok (store.rows table).toList, store)

/-- An operation stores at most one event, at the next offset. -/
theorem events_handle (o : StoreOp) (store : PocketStore) :
    (db.handle o store).2.events = store.events ∨ ∃ event,
      (db.handle o store).2.events = store.events ++ [⟨event, db.nextOffset store.events⟩] := by
  cases o with
  | storeEvent event =>
    have hhandle : db.handle (.storeEvent event) store = db.storeEvent event store := rfl
    rw [hhandle, storeEvent]
    split
    · exact .inl rfl
    · exact .inr ⟨event, rfl⟩
  | putExtraRecord table => cases table <;> exact .inl rfl
  | deleteExtraRecord table => cases table <;> exact .inl rfl
  | _ => exact .inl rfl

/-- The offset after an event is greater than the event's own. -/
theorem nextEventOffset_gt (stored : StoredEvent) :
    stored.storeOffset < db.nextEventOffset stored := by
  have hlen : 0 < db.eventLen stored.event := db.eventLen_pos stored.event
  exact lt_of_lt_of_le (Nat.lt_add_of_pos_right hlen) (alignEventOffset_bounds _).1

end PocketDb

/-- What the relay relies on when it looks for an event by its id. -/
structure PocketDb.Faithful (db : PocketDb) : Prop where
  /-- An event that is found under an id is stored with that id. -/
  found : ∀ {events id event}, db.findById events id = some event →
    ∃ item ∈ events, item.event.id = id
  /-- An event whose id is stored is found under it or refused. -/
  told : ∀ {events event}, (∃ item ∈ events, item.event.id = event.id) →
    db.findById events event.id = none → (db.refuses events event).isSome = true

/-- What the relay relies on when it looks at the event it has found: it is the stored event of that
id. -/
structure PocketDb.FindsStored (db : PocketDb) : Prop where
  stored : ∀ {events id event}, db.findById events id = some event →
    event.id = id ∧ ∃ item ∈ events, item.event = event

/-- An event that is neither found nor refused has an id of its own. -/
theorem PocketDb.Faithful.fresh {db : PocketDb} (h : db.Faithful) {events : List StoredEvent}
    {event : PocketEvent} (hfind : db.findById events event.id = none)
    (hrefuses : db.refuses events event = none) : ∀ other ∈ events, other.event.id ≠ event.id := by
  intro other hother hid
  have hsome := h.told ⟨other, hother, hid⟩ hfind
  rw [hrefuses] at hsome
  cases hsome

/-! ## Runs of the operations -/

section
variable {db : PocketDb} {ε : Type} {wrap : String → ε} {store : PocketStore}

/-- Looking an event up finds what the database finds and changes nothing. -/
@[simp] theorem exec_eventById (id : EventId) :
    exec db.handle (StoreM.eventById wrap id) store =
      (.ok (db.findById store.events id), store) := rfl

/-- An event is stored behind the events so far, at the offset that the database gives it, unless
the database refuses it. -/
theorem exec_storeEvent (event : PocketEvent) :
    exec db.handle (StoreM.storeEvent wrap event) store =
      match db.refuses store.events event with
      | some error => (.error (wrap error), store)
      | none => (.ok (db.nextOffset store.events),
          { store with events := store.events ++ [⟨event, db.nextOffset store.events⟩] }) := by
  have hcall : exec db.handle (StoreM.storeEvent wrap event) store =
      ((db.storeEvent event store).1.mapError wrap, (db.storeEvent event store).2) := rfl
  rw [hcall]
  unfold PocketDb.storeEvent
  cases db.refuses store.events event with
  | none => rfl
  | some error => rfl

/-- A scan reads the events behind an offset and changes nothing. -/
@[simp] theorem exec_scanEventsAfter (lastOffset : Option StoreOffset) :
    exec db.handle (StoreM.scanEventsAfter wrap lastOffset) store =
      ((PocketDb.scanAfter store.events lastOffset).mapError wrap, store) := rfl

/-- A row is looked up in its table, and nothing changes. -/
@[simp] theorem exec_getExtraRecord (table : GroupTable) (key : Text) :
    exec db.handle (StoreM.getExtraRecord wrap table key) store =
      (.ok (store.rows table)[key]?, store) := rfl

/-- A row is written in its table, and no other table or event is touched. -/
@[simp] theorem exec_putExtraRecord (table : GroupTable) (key : Text) (value : ExtraValue) :
    exec db.handle (StoreM.putExtraRecord wrap table key value) store =
      (.ok (), store.updateRows table fun rows => rows.insert key value) := rfl

/-- A row is deleted in its table, and no other table or event is touched. -/
@[simp] theorem exec_deleteExtraRecord (table : GroupTable) (key : Text) :
    exec db.handle (StoreM.deleteExtraRecord wrap table key) store =
      (.ok (), store.updateRows table fun rows => rows.erase key) := rfl

/-- A table is read as a whole, in the order of its keys. -/
@[simp] theorem exec_scanExtraRecords (table : GroupTable) :
    exec db.handle (StoreM.scanExtraRecords wrap table) store =
      (.ok (store.rows table).toList, store) := rfl

end

/-! ## What the operations keep -/

section
variable {db : PocketDb} {ε : Type} {wrap : String → ε} {I : PocketStore → Prop}

/-- Looking an event up keeps every invariant of the store. -/
theorem keeps_eventById (id : EventId) :
    Keeps db.handle I (StoreM.eventById wrap id) fun _ => True :=
  Keeps.perform (fun _ hs => hs) fun _ _ _ _ => trivial

/-- A scan keeps every invariant, and its events have what the invariant gives them. -/
theorem keeps_scanEventsAfter {lastOffset : Option StoreOffset} {Q : List StoredEvent → Prop}
    (hQ : ∀ store stored, I store → PocketDb.scanAfter store.events lastOffset = .ok stored →
      Q stored) :
    Keeps db.handle I (StoreM.scanEventsAfter wrap lastOffset) Q :=
  Keeps.perform (fun _ hs => hs) fun store stored hs hread =>
    hQ store stored hs (Except.mapError_eq_ok.mp hread)

/-- Looking a row up keeps every invariant of the store. -/
theorem keeps_getExtraRecord (table : GroupTable) (key : Text) :
    Keeps db.handle I (StoreM.getExtraRecord wrap table key) fun _ => True :=
  Keeps.perform (fun _ hs => hs) fun _ _ _ _ => trivial

/-- Writing a row keeps an invariant when the table with the row in it does. -/
theorem keeps_putExtraRecord {table : GroupTable} {key : Text} {value : ExtraValue}
    (hkeep : ∀ store, I store → I (store.updateRows table fun rows => rows.insert key value)) :
    Keeps db.handle I (StoreM.putExtraRecord wrap table key value) fun _ => True :=
  Keeps.perform hkeep fun _ _ _ _ => trivial

/-- Deleting a row keeps an invariant when the table without the row does. -/
theorem keeps_deleteExtraRecord {table : GroupTable} {key : Text}
    (hkeep : ∀ store, I store → I (store.updateRows table fun rows => rows.erase key)) :
    Keeps db.handle I (StoreM.deleteExtraRecord wrap table key) fun _ => True :=
  Keeps.perform hkeep fun _ _ _ _ => trivial

/-- Reading a table keeps every invariant, and its rows have what the invariant gives them. -/
theorem keeps_scanExtraRecords {table : GroupTable} {Q : List (Text × ExtraValue) → Prop}
    (hQ : ∀ store, I store → Q (store.rows table).toList) :
    Keeps db.handle I (StoreM.scanExtraRecords wrap table) Q :=
  Keeps.perform (fun _ hs => hs) fun store _ hs hread =>
    Except.ok.inj (Except.mapError_eq_ok.mp hread) ▸ hQ store hs

end

end Tangle
