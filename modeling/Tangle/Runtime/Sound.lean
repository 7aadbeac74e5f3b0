import Tangle.Lib.Wp
import Tangle.Runtime.Records
import Tangle.Runtime.Reload
import Tangle.Runtime.Owed

/-!
# Sound stores

What holds of the store at every point of a run, also between two operations of a write. The events
arrived in the order of their offsets and each has an origin: it is of no group, a client's event
was accepted, or the relay generated it for a record it had planned. The rows are those of a
projection that has seen the events up to the checkpoint and none that is not in the store, and the
outbox rows are those of records that were planned for stored events (`PocketStore.Sound`).

`Serves` says in addition what the service's memory has seen: the events up to the checkpoint, and
those that `must` names.
-/

namespace Tangle

/-- Where the events of a store may come from: clients whose events were accepted, and relays with
keys of their own. -/
structure Sources where
  client : PocketEvent → Prop
  signer : RelaySigner → Prop

/-- More events are accepted and more keys are used as a run goes on. -/
structure Sources.Within (sources sources' : Sources) : Prop where
  client : ∀ event, sources.client event → sources'.client event
  signer : ∀ signer, sources.signer signer → sources'.signer signer

variable {relay : Relay} {sources : Sources} {store : PocketStore} {item : StoredEvent}

/-! ## Records -/

/-- The record was planned for the event, on a projection whose entries carry their names. -/
def PlannedFor (pocket : PocketTypes) (event : PocketEvent) (record : GroupOutboxRecord) : Prop :=
  ∃ limits eventClass projection authority cap before records,
    projection.Named ∧ classifyGroupEvent event limits = .ok eventClass ∧
      planGroupOutboxRecords pocket event eventClass projection authority cap before =
        .ok records ∧
      ∃ planned ∈ records, planned.key = record.key ∧ planned.payload = record.payload

/-- The relay builds the event from the payload with one of its keys. -/
def RelayGenerates (relay : Relay) (sources : Sources) (payload : GroupOutboxPayload)
    (event : PocketEvent) : Prop :=
  ∃ builder : GroupGeneratedEventBuilder, sources.signer builder.signer ∧
    relay.pocket.publicKey builder.signer.secret = .ok builder.signer.publicKey ∧
      builder.signPayloadPocket relay.pocket payload = .ok event

/-- A record that was planned for a stored event, may be tried again unless it is final, and is
final as stored only when its event is in the store. -/
structure RecordSound (relay : Relay) (sources : Sources) (events : List StoredEvent)
    (record : GroupOutboxRecord) : Prop where
  planned : ∃ source ∈ events, PlannedFor relay.pocket source.event record
  retried : record.status ≠ .failed false
  stored : ∀ id, record.status = .stored id →
    (∃ event, RelayGenerates relay sources record.payload event ∧ event.id = id) ∧
      (relay.db.Faithful → ∃ item ∈ events, item.event.id = id)

/-- A record is sound among more events as well. -/
theorem RecordSound.mono {events events' : List StoredEvent} {record : GroupOutboxRecord}
    (h : RecordSound relay sources events record) (hsub : ∀ item ∈ events, item ∈ events') :
    RecordSound relay sources events' record where
  planned := by
    obtain ⟨source, hsource, hplanned⟩ := h.planned
    exact ⟨source, hsub source hsource, hplanned⟩
  retried := h.retried
  stored id hid := by
    obtain ⟨hevent, hstored⟩ := h.stored id hid
    refine ⟨hevent, fun hdb => ?_⟩
    obtain ⟨item, hitem, heq⟩ := hstored hdb
    exact ⟨item, hsub item hitem, heq⟩

/-- The records of an outbox are sound. -/
def GroupOutbox.RecordsSound (relay : Relay) (sources : Sources) (events : List StoredEvent)
    (outbox : GroupOutbox) : Prop :=
  ∀ key record, outbox.get key = some record → RecordSound relay sources events record

/-- An outbox stays sound with a sound record more. -/
theorem GroupOutbox.RecordsSound.update {events : List StoredEvent} {outbox : GroupOutbox}
    {record : GroupOutboxRecord} (h : outbox.RecordsSound relay sources events)
    (hrecord : RecordSound relay sources events record) :
    (outbox.update record).RecordsSound relay sources events := by
  intro key found hfound
  rw [GroupOutbox.get_update] at hfound
  split at hfound
  · cases hfound
    exact hrecord
  · exact h key found hfound

/-- Where a stored event comes from. -/
inductive Origin (relay : Relay) (sources : Sources) (events : List StoredEvent)
    (event : PocketEvent) : Prop
  | plain : classifyGroupEvent event .widest = .ok .nonGroup → Origin relay sources events event
  | client : sources.client event → Origin relay sources events event
  | generated {source : StoredEvent} {record : GroupOutboxRecord} :
      source ∈ events → PlannedFor relay.pocket source.event record →
      RelayGenerates relay sources record.payload event → Origin relay sources events event

/-- An event keeps its origin among more events. -/
theorem Origin.mono {events events' : List StoredEvent} {event : PocketEvent}
    (h : Origin relay sources events event) (hsub : ∀ item ∈ events, item ∈ events') :
    Origin relay sources events' event := by
  cases h with
  | plain hclass => exact .plain hclass
  | client h => exact .client h
  | generated hsource hplanned hgenerates => exact .generated (hsub _ hsource) hplanned hgenerates

section
variable {sources' : Sources} (hwithin : sources.Within sources')
include hwithin

/-- What a relay generates it generates from wider sources as well. -/
theorem RelayGenerates.within {payload : GroupOutboxPayload} {event : PocketEvent}
    (h : RelayGenerates relay sources payload event) :
      RelayGenerates relay sources' payload event := by
  obtain ⟨builder, hknown, hsign⟩ := h
  exact ⟨builder, hwithin.signer _ hknown, hsign⟩

/-- A record is sound with wider sources as well. -/
theorem RecordSound.within {events : List StoredEvent} {record : GroupOutboxRecord}
    (h : RecordSound relay sources events record) : RecordSound relay sources' events record where
  planned := h.planned
  retried := h.retried
  stored id hid := by
    obtain ⟨⟨event, hgenerates, heq⟩, hstored⟩ := h.stored id hid
    exact ⟨⟨event, hgenerates.within hwithin, heq⟩, hstored⟩

/-- An event keeps its origin with wider sources. -/
theorem Origin.within {events : List StoredEvent} {event : PocketEvent}
    (h : Origin relay sources events event) : Origin relay sources' events event := by
  cases h with
  | plain hclass => exact .plain hclass
  | client h => exact .client (hwithin.client event h)
  | generated hsource hplanned hgenerates =>
    exact .generated hsource hplanned (hgenerates.within hwithin)

end

/-! ## The store -/

/-- The event lies up to the checkpoint that the next start will trust. -/
def PocketStore.CheckpointCovers (store : PocketStore) (item : StoredEvent) : Prop :=
  ∃ checkpoint, store.checkpointStatus = .ok (.current checkpoint) ∧
    UpTo checkpoint.lastOffset item

/-- What holds of the store at every point of a run. -/
structure PocketStore.Sound (relay : Relay) (sources : Sources) (store : PocketStore) :
    Prop where
  arrived : Arrived .widest store.events
  /-- No two events share an id. -/
  ids : relay.db.Faithful → store.events.Pairwise fun a b => a.event.id ≠ b.event.id
  origin : ∀ item ∈ store.events, Origin relay sources store.events item.event
  rows : ∃ projection : GroupProjection, HoldsRows projection.row store.projection ∧
    ProjectionCovers .widest (fun item => item ∈ store.events ∧ store.CheckpointCovers item)
      (· ∈ store.events) projection
  /-- A checkpoint is that of a stored event. -/
  checkpoint : ∀ checkpoint offset, store.checkpointStatus = .ok (.current checkpoint) →
    checkpoint.lastOffset = some offset → ∃ item ∈ store.events, item.storeOffset = offset
  /-- A group that is created after the checkpoint was not there at the checkpoint. -/
  created : ∀ groupId, ∀ creator ∈ store.events, CreatesGroup .widest groupId creator →
    ¬store.CheckpointCovers creator → ∀ other ∈ store.events,
      SetsMetadata .widest groupId other → ¬store.CheckpointCovers other
  records : ∃ outbox : GroupOutbox, HoldsRecords outbox store.outbox ∧
    outbox.RecordsSound relay sources store.events

namespace PocketStore

/-- An empty store has no checkpoint. -/
theorem checkpointStatus_empty : PocketStore.empty.checkpointStatus = .ok .missing := by
  have hnone : PocketStore.empty.checkpoint[projectionCheckpointKey]? = none :=
    BTreeMap.getElem?_empty
  rw [checkpointStatus, hnone]
  rfl

/-- A store that holds nothing is sound. -/
theorem Sound.empty : PocketStore.empty.Sound relay sources where
  arrived := .nil
  ids _ := .nil
  origin _ h := nomatch h
  rows := by
    refine ⟨.new, HoldsRows.empty.congr fun key => ?_,
      ProjectionCovers.new.mono (fun _ h => (nomatch h.1)) fun _ h => h.elim⟩
    cases key <;> simp [GroupProjection.row, GroupProjection.new, GroupProjection.group,
      GroupProjection.member, GroupProjection.tombstone, GroupProjection.eventDeletion]
  checkpoint checkpoint offset h := by
    rw [checkpointStatus_empty] at h
    cases h
  created _ _ h := nomatch h
  records := ⟨.new, .empty, fun key record h => by simp [GroupOutbox.new, GroupOutbox.get] at h⟩

/-- The checkpoint does not reach an event that comes later than the store's events. -/
theorem Sound.not_covers (h : store.Sound relay sources)
    (hoffset : ∀ other ∈ store.events, other.storeOffset < item.storeOffset) :
    ¬store.CheckpointCovers item := by
  rintro ⟨checkpoint, hcurrent, offset, hlast, hle⟩
  obtain ⟨other, hother, rfl⟩ := h.checkpoint checkpoint offset hcurrent hlast
  exact not_le.mpr (hoffset other hother) hle

/-- An event more in the store. -/
theorem Sound.append (h : store.Sound relay sources)
    (hoffset : ∀ other ∈ store.events, other.storeOffset < item.storeOffset)
    (hfresh : relay.db.Faithful → ∀ other ∈ store.events, other.event.id ≠ item.event.id)
    (horigin : Origin relay sources store.events item.event)
    (hmade : ∀ groupId, SetsMetadata .widest groupId item → MakesGroup .widest groupId item ∨
      ∃ maker ∈ store.events, MakesGroup .widest groupId maker)
    (hcreated : ∀ groupId, CreatesGroup .widest groupId item → ∀ other ∈ store.events,
      SetsMetadata .widest groupId other → ¬store.CheckpointCovers other) :
    PocketStore.Sound relay sources { store with events := store.events ++ [item] } where
  arrived := h.arrived.append hoffset hmade
  ids hdb := by
    refine List.pairwise_append.mpr ⟨h.ids hdb, List.pairwise_singleton .., fun other hother last
      hlast => ?_⟩
    exact List.mem_singleton.mp hlast ▸ hfresh hdb other hother
  origin other hother := by
    have hsub : ∀ item' ∈ store.events, item' ∈ store.events ++ [item] :=
      fun _ => List.mem_append_left _
    rcases List.mem_append.mp hother with hother | hother
    · exact (h.origin other hother).mono hsub
    · exact List.mem_singleton.mp hother ▸ horigin.mono hsub
  rows := by
    obtain ⟨projection, hrows, hcovers⟩ := h.rows
    refine ⟨projection, hrows, hcovers.mono (fun other ⟨hother, hupTo⟩ => ?_)
      fun _ => List.mem_append_left _⟩
    rcases List.mem_append.mp hother with hother | hother
    · exact ⟨hother, hupTo⟩
    · exact absurd (List.mem_singleton.mp hother ▸ hupTo) (h.not_covers hoffset)
  checkpoint checkpoint offset hcurrent hlast := by
    obtain ⟨other, hother, heq⟩ := h.checkpoint checkpoint offset hcurrent hlast
    exact ⟨other, List.mem_append_left _ hother, heq⟩
  created groupId creator hcreator hcreates hnot other hother hsets := by
    rcases List.mem_append.mp hother with hother | hother
    · rcases List.mem_append.mp hcreator with hcreator | hcreator
      · exact h.created groupId creator hcreator hcreates hnot other hother hsets
      · cases List.mem_singleton.mp hcreator
        exact hcreated groupId hcreates other hother hsets
    · cases List.mem_singleton.mp hother
      exact h.not_covers hoffset
  records := by
    obtain ⟨outbox, hrows, hrecords⟩ := h.records
    exact ⟨outbox, hrows, fun key record hget =>
      (hrecords key record hget).mono fun _ => List.mem_append_left _⟩

/-- A store is sound with wider sources as well. -/
theorem Sound.within {sources' : Sources} (h : store.Sound relay sources)
    (hwithin : sources.Within sources') : store.Sound relay sources' where
  arrived := h.arrived
  ids := h.ids
  origin item hitem := (h.origin item hitem).within hwithin
  rows := h.rows
  checkpoint := h.checkpoint
  created := h.created
  records := by
    obtain ⟨outbox, hrows, hrecords⟩ := h.records
    exact ⟨outbox, hrows, fun key record hget => (hrecords key record hget).within hwithin⟩

/-- A record more, or a record replaced. -/
theorem Sound.putRecord {outbox : GroupOutbox} {record : GroupOutboxRecord}
    (h : store.Sound relay sources) (hrows : HoldsRecords outbox store.outbox)
    (hrecords : outbox.RecordsSound relay sources store.events)
    (hrecord : RecordSound relay sources store.events record) :
    PocketStore.Sound relay sources { store with
      outbox := store.outbox.insert record.key.storageKey record.toJsonBytes } where
  arrived := h.arrived
  ids := h.ids
  origin := h.origin
  rows := h.rows
  checkpoint := h.checkpoint
  created := h.created
  records := ⟨outbox.update record, hrows.update record, hrecords.update hrecord⟩

end PocketStore

/-! ## One row at a time -/

/-- A projection with one entry of another. -/
def GroupProjection.patch (held fresh : GroupProjection) : ProjectionKey → GroupProjection
  | .group groupId => { held with
      groups := (fresh.group groupId).elim held.groups fun group =>
        held.groups.insert groupId group }
  | .member groupId pubkey => { held with
      members := (fresh.member groupId pubkey).elim held.members fun member =>
        held.members.insert (toLex (groupId, pubkey)) member }
  | .role groupId roleName => { held with
      roles := fresh.roles[toLex (groupId, roleName)]?.elim held.roles fun role =>
        held.roles.insert (toLex (groupId, roleName)) role }
  | .tombstone groupId => { held with
      tombstones := (fresh.tombstone groupId).elim held.tombstones fun tombstone =>
        held.tombstones.insert groupId tombstone }
  | .eventDeletion eventId => { held with
      eventDeletions := (fresh.eventDeletion eventId).elim held.eventDeletions fun deletion =>
        held.eventDeletions.insert eventId deletion }

/-- The row of an entry is replaced with it. -/
theorem GroupProjection.row_patch {held fresh : GroupProjection} {key : ProjectionKey}
    {value : ExtraValue} (hrow : fresh.row key = some value) :
    (held.patch fresh key).row = Function.update held.row key (some value) := by
  funext other
  rw [Function.update_apply]
  cases key with
  | group groupId =>
    obtain ⟨group, (hgroup : fresh.groups[groupId]? = some group), rfl⟩ :=
      Option.map_eq_some_iff.mp hrow
    cases other with
    | group other =>
      simp only [row, patch, hgroup, Option.elim_some, GroupProjection.group,
        BTreeMap.getElem?_insert, ProjectionKey.group.injEq, eq_comm (a := other)]
      split <;> rfl
    | _ => rfl
  | member groupId pubkey =>
    obtain ⟨member, (hmember : fresh.members[toLex (groupId, pubkey)]? = some member), rfl⟩ :=
      Option.map_eq_some_iff.mp hrow
    cases other with
    | member other key =>
      simp only [row, patch, hmember, Option.elim_some, GroupProjection.member,
        BTreeMap.getElem?_insert, ProjectionKey.member.injEq, EmbeddingLike.apply_eq_iff_eq,
          Prod.mk.injEq, eq_comm (a := other), eq_comm (a := key)]
      split <;> rfl
    | _ => rfl
  | role groupId roleName =>
    obtain ⟨role, hrole, rfl⟩ := Option.map_eq_some_iff.mp hrow
    cases other with
    | role other name =>
      simp only [row, patch, hrole, Option.elim_some, 
        BTreeMap.getElem?_insert, ProjectionKey.role.injEq, EmbeddingLike.apply_eq_iff_eq,
          Prod.mk.injEq, eq_comm (a := other), eq_comm (a := name)]
      split <;> rfl
    | _ => rfl
  | tombstone groupId =>
    obtain ⟨tombstone, (htombstone : fresh.tombstones[groupId]? = some tombstone), rfl⟩ :=
      Option.map_eq_some_iff.mp hrow
    cases other with
    | tombstone other =>
      simp only [row, patch, htombstone, Option.elim_some, GroupProjection.tombstone,
        BTreeMap.getElem?_insert, ProjectionKey.tombstone.injEq, eq_comm (a := other)]
      split <;> rfl
    | _ => rfl
  | eventDeletion eventId =>
    obtain ⟨deletion, (hdeletion : fresh.eventDeletions[eventId]? = some deletion), rfl⟩ :=
      Option.map_eq_some_iff.mp hrow
    cases other with
    | eventDeletion other =>
      simp only [row, patch, hdeletion, Option.elim_some, GroupProjection.eventDeletion,
        BTreeMap.getElem?_insert, ProjectionKey.eventDeletion.injEq, eq_comm (a := other)]
      split <;> rfl
    | _ => rfl

/-- A projection with one entry of another has seen what both have seen. -/
theorem ProjectionCovers.patch {limits : GroupLimitsConfig} {L₀ L : CanonicalGroupEvent → Prop}
    {held fresh : GroupProjection} (h : ProjectionCovers limits L₀ L held)
    (hfresh : ProjectionCovers limits L₀ L fresh) (key : ProjectionKey) :
    ProjectionCovers limits L₀ L (held.patch fresh key) := by
  cases key with
  | group groupId =>
    cases hfound : fresh.group groupId with
    | none => simpa only [GroupProjection.patch, hfound, Option.elim_none] using h
    | some group =>
      simp only [GroupProjection.patch, hfound, Option.elim_some]
      have hgroup : ∀ other, (held.groups.insert groupId group)[other]? =
          if groupId = other then some group else held.groups[other]? :=
        fun other => BTreeMap.getElem?_insert
      refine ⟨h.members, h.tombstones, h.eventDeletions, h.roles, fun other found hother => ?_,
        fun other item hitem hmakes => ?_⟩
      · rw [GroupProjection.group, hgroup] at hother
        split at hother
        · next heq =>
          cases hother
          exact hfresh.groups other group (heq ▸ hfound)
        · exact h.groups other found hother
      · rw [GroupProjection.group, hgroup]
        split
        · exact ⟨group, rfl⟩
        · exact h.present other item hitem hmakes
  | member groupId pubkey =>
    cases hfound : fresh.member groupId pubkey with
    | none => simpa only [GroupProjection.patch, hfound, Option.elim_none] using h
    | some member =>
      simp only [GroupProjection.patch, hfound, Option.elim_some]
      exact ⟨h.members.insert_of hfresh.members hfound, h.tombstones, h.eventDeletions, h.roles,
        h.groups, h.present⟩
  | role groupId roleName =>
    -- no event defines a role
    have hnone : fresh.roles[toLex (groupId, roleName)]? = none := by
      rw [hfresh.roles]
      exact BTreeMap.getElem?_empty
    simpa only [GroupProjection.patch, hnone, Option.elim_none] using h
  | tombstone groupId =>
    cases hfound : fresh.tombstone groupId with
    | none => simpa only [GroupProjection.patch, hfound, Option.elim_none] using h
    | some tombstone =>
      simp only [GroupProjection.patch, hfound, Option.elim_some]
      exact ⟨h.members, h.tombstones.insert_of hfresh.tombstones hfound, h.eventDeletions, h.roles,
        h.groups, h.present⟩
  | eventDeletion eventId =>
    cases hfound : fresh.eventDeletion eventId with
    | none => simpa only [GroupProjection.patch, hfound, Option.elim_none] using h
    | some deletion =>
      simp only [GroupProjection.patch, hfound, Option.elim_some]
      exact ⟨h.members, h.tombstones, h.eventDeletions.insert_of hfresh.eventDeletions hfound,
        h.roles, h.groups, h.present⟩

/-- A row of a projection that has seen the events up to the checkpoint. -/
theorem PocketStore.Sound.putRow (h : store.Sound relay sources) {fresh : GroupProjection}
    (hcovers : ProjectionCovers .widest
      (fun item => item ∈ store.events ∧ store.CheckpointCovers item) (· ∈ store.events) fresh)
    {key : ProjectionKey} {value : ExtraValue} (hrow : fresh.row key = some value) :
    PocketStore.Sound relay sources { store with
      projection := store.projection.insert key.text value } where
  arrived := h.arrived
  ids := h.ids
  origin := h.origin
  rows := by
    obtain ⟨held, hrows, hheld⟩ := h.rows
    refine ⟨held.patch fresh key, ?_, hheld.patch hcovers key⟩
    rw [GroupProjection.row_patch hrow]
    exact hrows.insert key value
  checkpoint := h.checkpoint
  created := h.created
  records := h.records

/-! ## What the service has seen -/

/-- Events that the service must have seen whatever failed: the deletions of groups are among them,
and either all events are or none that sets metadata. -/
structure MustSee (must : StoredEvent → Prop) : Prop where
  deletions : ∀ groupId item, DeletesGroup .widest groupId item → must item
  closed : (∀ item, must item) ∨
    ∀ groupId item, must item → ¬SetsMetadata .widest groupId item

/-- The deletions of groups. -/
def Deletion (item : StoredEvent) : Prop :=
  ∃ groupId, DeletesGroup .widest groupId item

/-- Every event deletion must be seen. -/
theorem MustSee.deletions_le {must : StoredEvent → Prop} (h : MustSee must) :
    ∀ item, Deletion item → must item :=
  fun item ⟨groupId, hdeletes⟩ => h.deletions groupId item hdeletes

/-- It is enough to see every event. -/
theorem MustSee.all : MustSee fun _ => True :=
  ⟨fun _ _ _ => trivial, .inl fun _ => trivial⟩

/-- It is enough to see the event deletions. -/
theorem MustSee.onlyDeletions : MustSee Deletion :=
  ⟨fun groupId _ h => ⟨groupId, h⟩, .inr fun _ _ ⟨_, h⟩ => h.not_setsMetadata⟩

/-- The events the service has seen: those up to the checkpoint, and those that `must` names. -/
def Seen (must : StoredEvent → Prop) (store : PocketStore) (item : StoredEvent) : Prop :=
  item ∈ store.events ∧ (must item ∨ store.CheckpointCovers item)

/-- What holds of the service and its store between two writes. -/
structure Serves (relay : Relay) (sources : Sources) (must : StoredEvent → Prop)
    (state : GroupServiceState) (store : PocketStore) : Prop where
  sound : store.Sound relay sources
  covers : ProjectionCovers .widest (Seen must store) (· ∈ store.events) state.projection
  rows : HoldsRecords state.outbox store.outbox
  records : state.outbox.RecordsSound relay sources store.events
  signer : relay.pocket.publicKey state.builder.signer.secret = .ok state.builder.signer.publicKey
  known : sources.signer state.builder.signer
  batch : 0 < state.outboxReplayBatchCap.toNat

namespace Serves

variable {must must' : StoredEvent → Prop} {state : GroupServiceState} {groupId : GroupId}
  {projection : GroupProjection}

/-- Having seen more is having seen less. -/
theorem weaken (h : Serves relay sources must state store) (himp : ∀ item, must' item → must item) :
    Serves relay sources must' state store where
  sound := h.sound
  covers := h.covers.mono (fun _ ⟨hitem, hseen⟩ => ⟨hitem, hseen.imp_left (himp _)⟩) fun _ h => h
  rows := h.rows
  records := h.records
  signer := h.signer
  known := h.known
  batch := h.batch

/-- A service that serves its sources serves wider ones. -/
theorem within {sources' : Sources} (h : Serves relay sources must state store)
    (hwithin : sources.Within sources') : Serves relay sources' must state store where
  sound := h.sound.within hwithin
  covers := h.covers
  rows := h.rows
  records key record hget := (h.records key record hget).within hwithin
  signer := h.signer
  known := hwithin.signer _ h.known
  batch := h.batch

/-- What made a group whose metadata the service has seen set, it has seen too. -/
theorem made_of_seen (h : Serves relay sources must state store) (hmust : MustSee must)
    (hitem : Seen must store item) (hsets : SetsMetadata .widest groupId item) :
    ∃ maker, Seen must store maker ∧ MakesGroup .widest groupId maker := by
  obtain ⟨maker, hmaker, hmakes, hle⟩ := h.sound.arrived.made groupId item hitem.1 hsets
  refine ⟨maker, ⟨hmaker, ?_⟩, hmakes⟩
  rcases hmust.closed with hall | hnone
  · exact .inl (hall maker)
  · obtain ⟨checkpoint, hcurrent, hupTo⟩ :=
      hitem.2.resolve_left fun hmust => hnone groupId item hmust hsets
    exact .inr ⟨checkpoint, hcurrent, hupTo.of_le hle⟩

/-- A group that the service does not have was not there at the checkpoint. -/
theorem unset_of_none (h : Serves relay sources must state store) (hmust : MustSee must)
    (hnone : state.projection.group groupId = none) :
    ∀ other ∈ store.events, SetsMetadata .widest groupId other →
      ¬store.CheckpointCovers other := by
  intro other hother hsets hcovers
  obtain ⟨maker, hmaker, hmakes⟩ := h.made_of_seen hmust ⟨hother, .inr hcovers⟩ hsets
  obtain ⟨group, hgroup⟩ := h.covers.present groupId maker hmaker hmakes
  cases hnone.symm.trans hgroup

/-- An event that may come next: it lies behind the others, its origin is known, it sets metadata of
a group that is there or that it makes, and it creates no group that is there. -/
structure Next (relay : Relay) (sources : Sources) (projection : GroupProjection)
    (store : PocketStore) (item : StoredEvent) : Prop where
  offset : ∀ other ∈ store.events, other.storeOffset < item.storeOffset
  fresh : relay.db.Faithful → ∀ other ∈ store.events, other.event.id ≠ item.event.id
  origin : Origin relay sources store.events item.event
  made : ∀ groupId, SetsMetadata .widest groupId item → MakesGroup .widest groupId item ∨
    ∃ group, projection.group groupId = some group
  created : ∀ groupId, CreatesGroup .widest groupId item → projection.group groupId = none

/-- The store with the next event. -/
theorem append (h : Serves relay sources must state store) (hmust : MustSee must)
    (hnext : Next relay sources state.projection store item) :
    PocketStore.Sound relay sources { store with events := store.events ++ [item] } := by
  refine h.sound.append hnext.offset hnext.fresh hnext.origin
    (fun groupId hsets => ?_) fun groupId hcreates =>
    h.unset_of_none hmust (hnext.created groupId hcreates)
  refine (hnext.made groupId hsets).imp_right fun ⟨group, hgroup⟩ => ?_
  obtain ⟨setter, hsetter, hwrite, _⟩ := (h.covers.groups groupId group hgroup).written
  obtain ⟨maker, hmaker, hmakes, _⟩ := h.sound.arrived.made groupId setter hsetter ⟨_, hwrite⟩
  exact ⟨maker, hmaker, hmakes⟩

/-- What has been seen once an event was stored. -/
theorem seen_append (h : Serves relay sources must state store)
    (hoffset : ∀ other ∈ store.events, other.storeOffset < item.storeOffset) {other : StoredEvent}
    (hother : Seen must { store with events := store.events ++ [item] } other) :
    Seen must store other ∨ (other = item ∧ must item) := by
  obtain ⟨hmem, hseen⟩ := hother
  rcases List.mem_append.mp hmem with hmem | hmem
  · exact .inl ⟨hmem, hseen⟩
  · cases List.mem_singleton.mp hmem
    exact .inr ⟨rfl, hseen.resolve_right (h.sound.not_covers hoffset)⟩

/-- The projection that has taken the next event. -/
theorem applied (h : Serves relay sources must state store) (hmust : MustSee must)
    (hnext : Next relay sources state.projection store item)
    (happly : applyItem state.limits state.projection item = .ok projection) :
    ProjectionCovers .widest (Seen must { store with events := store.events ++ [item] })
      (· ∈ store.events ++ [item]) projection := by
  have hone := h.covers.arrive (fun groupId item hitem hsets => h.made_of_seen hmust hitem hsets)
    hnext.created (applyItem_widest happly)
  refine hone.mono (fun other hother => ?_) fun other hother => ?_
  · exact (h.seen_append hnext.offset hother).imp_right And.left
  · rw [List.mem_append, List.mem_singleton]
    exact hother

/-- The projection that has not taken the next event. -/
theorem passed (h : Serves relay sources must state store)
    (hoffset : ∀ other ∈ store.events, other.storeOffset < item.storeOffset)
    (hnot : ¬must item) :
    ProjectionCovers .widest (Seen must { store with events := store.events ++ [item] })
      (· ∈ store.events ++ [item]) state.projection :=
  h.covers.mono (fun _ hother => (h.seen_append hoffset hother).resolve_right fun h => hnot h.2)
    fun _ hother => List.mem_append_left _ hother

end Serves

end Tangle
