import Tangle.Runtime.Reload
import Tangle.Runtime.Steps

/-!
# Invariants of writes and starts

Many invariants of the service are told part by part: what holds of a stored event, of a projection,
of a record of the outbox, and of the store that holds them. `Upkeep` names the parts and
`Upkeep.Writes` what has to be shown of them: that a projection keeps its part when it takes an
event, that planning makes records of theirs, that signing makes events of theirs. From this every
step of a write keeps the whole, whether it succeeds or fails (`keeps_storeGroupPocketEvent`), and
with `Upkeep.Starts` so does a start (`keeps_start`).
-/

namespace Tangle

open GroupEventView

/-- An invariant of the service and its store, part by part. -/
structure Upkeep where
  store : PocketStore → Prop
  event : PocketEvent → Prop
  projection : GroupProjection → Prop
  record : GroupOutboxRecord → Prop
  authority : GroupAuthority → Prop

namespace Upkeep

/-- The parts hold of the service, which runs under the limits with the key of its secret. -/
structure Holds (inv : Upkeep) (relay : Relay) (limits : GroupLimitsConfig)
    (state : GroupServiceState) : Prop where
  projection : inv.projection state.projection
  records : ∀ key record, state.outbox.get key = some record → inv.record record
  signer : relay.pocket.publicKey state.builder.signer.secret = .ok state.builder.signer.publicKey
  authority : inv.authority state.authority
  limits : state.limits = limits

/-- What a write does keeps the parts, when it generates events for the records of `turn` only. -/
structure Writes (inv : Upkeep) (relay : Relay) (limits : GroupLimitsConfig)
    (turn : GroupOutboxRecord → Prop) : Prop where
  taken : ∀ {projection projection' item}, inv.projection projection → inv.event item.event →
    applyItem limits projection item = .ok projection' → inv.projection projection'
  planned : ∀ {event eventClass projection authority cap before records},
    inv.projection projection → inv.event event → classifyGroupEvent event limits = .ok eventClass →
    planGroupOutboxRecords relay.pocket event eventClass projection authority cap before =
      .ok records → ∀ record ∈ records, inv.record record
  marked : ∀ {record record'}, inv.record record → record'.key = record.key →
    record'.payload = record.payload → inv.record record'
  generated : ∀ {record event} {builder : GroupGeneratedEventBuilder}, inv.record record →
    turn record → relay.pocket.publicKey builder.signer.secret = .ok builder.signer.publicKey →
    builder.signPayloadPocket relay.pocket record.payload = .ok event → inv.event event
  storeEvent : ∀ {store event offset}, inv.store store → inv.event event →
    (relay.db.Faithful → ∀ other ∈ store.events, other.event.id ≠ event.id) →
    inv.store { store with events := store.events ++ [⟨event, offset⟩] }
  putRow : ∀ {store projection key value}, inv.store store → inv.projection projection →
    projection.row key = some value →
    inv.store { store with projection := store.projection.insert key.text value }
  putRecord : ∀ {store record}, inv.store store → inv.record record →
    inv.store { store with
      outbox := store.outbox.insert record.key.storageKey record.toJsonBytes }

/-- What a start does keeps the parts, too, and what it loads has them. -/
structure Starts (inv : Upkeep) (relay : Relay) (limits : GroupLimitsConfig) : Prop
    extends Writes inv relay limits fun _ => True where
  new : inv.projection .new
  authorized : ∀ authority, inv.authority authority
  dated : ∀ {projection checkpoint}, inv.projection projection →
    inv.projection (projection.setCheckpoint checkpoint)
  scanned : ∀ {store item}, inv.store store → item ∈ store.events → inv.event item.event
  loaded : ∀ {store checkpoint projection}, inv.store store →
    loadGroupProjection store.projection.toList checkpoint = .ok projection →
    inv.projection projection
  loadedRecords : ∀ {store outbox key record}, inv.store store →
    loadGroupOutbox store.outbox.toList = .ok outbox → outbox.get key = some record →
    inv.record record
  eraseRow : ∀ {store key}, inv.store store →
    inv.store { store with projection := store.projection.erase key }
  putCheckpoint : ∀ {store key value}, inv.store store →
    inv.store { store with checkpoint := store.checkpoint.insert key value }

variable {inv : Upkeep} {relay : Relay} {limits : GroupLimitsConfig}
  {turn : GroupOutboxRecord → Prop} {state : GroupServiceState}

/-- The invariant holds on with another projection that has its part. -/
theorem Holds.takes (h : inv.Holds relay limits state) {projection : GroupProjection}
    (hprojection : inv.projection projection) :
    inv.Holds relay limits { state with projection := projection } where
  projection := hprojection
  records := h.records
  signer := h.signer
  authority := h.authority
  limits := h.limits

/-- The invariant holds on with a record that has its part. -/
theorem Holds.update (h : inv.Holds relay limits state) {record : GroupOutboxRecord}
    (hrecord : inv.record record) :
    inv.Holds relay limits { state with outbox := state.outbox.update record } where
  projection := h.projection
  records key found hfound := by
    dsimp only at hfound
    rw [GroupOutbox.get_update] at hfound
    split at hfound
    · cases hfound
      exact hrecord
    · exact h.records key found hfound
  signer := h.signer
  authority := h.authority
  limits := h.limits

/-- A program of the service keeps the parts, however it ends. -/
abbrev Keeps (inv : Upkeep) (relay : Relay) (limits : GroupLimitsConfig) {ε α : Type}
    (p : StatefulProg storeInterface GroupServiceState ε α) (Q : α → Prop) : Prop :=
  KeepsState relay.db.handle inv.store (inv.Holds relay limits) p Q

/-! ## Writes -/

section
variable (h : inv.Writes relay limits turn)
include h

/-- Writing a group's rows keeps the store's part. -/
theorem keeps_persistGroupProjection {projection : GroupProjection}
    (hprojection : inv.projection projection) (groupId : GroupId) :
    Tangle.Keeps relay.db.handle inv.store (persistGroupProjection projection groupId)
      fun _ => True := by
  refine Keeps.forM fun record hrecord => keeps_putExtraRecord fun store hstore => ?_
  obtain ⟨key, hkey, hrow, _⟩ := mem_groupRows.mp hrecord
  exact hkey ▸ h.putRow hstore hprojection hrow

/-- Writing a record keeps the store's part. -/
theorem keeps_persistOutboxRecord {record : GroupOutboxRecord} (hrecord : inv.record record) :
    Tangle.Keeps relay.db.handle inv.store (persistOutboxRecord record) fun _ => True :=
  keeps_putExtraRecord fun _ hstore => h.putRecord hstore hrecord

/-- Saving a record keeps the invariant. -/
theorem keeps_saveRecord {record : GroupOutboxRecord} (hrecord : inv.record record) :
    inv.Keeps relay limits (GroupServiceState.saveRecord record) fun _ => True :=
  (KeepsState.modify fun _ hstate => hstate.update hrecord).bind fun _ _ =>
    KeepsState.liftProg (keeps_persistOutboxRecord h hrecord)

/-- Storing a generated event keeps the invariant, if it is the record's turn. -/
theorem keeps_storeGeneratedEvent {record : GroupOutboxRecord} (hrecord : inv.record record)
    (hturn : turn record) :
    inv.Keeps relay limits (GroupServiceState.storeGeneratedEvent relay.pocket record)
      fun _ => True := by
  refine KeepsState.get.bind fun state hstate => ?_
  refine KeepsState.bind (KeepsState.liftExcept (fun generated hgenerated =>
    h.generated hrecord hturn hstate.signer (Except.mapError_eq_ok.mp hgenerated)))
    fun generated hgenerated => ?_
  refine KeepsState.bind (KeepsState.liftExcept fun _ _ => trivial) fun eventId _ => ?_
  -- the event is new to the store when it is stored
  refine WpState.keeps fun state' store hstate' hstore => WpState.liftProg_seq
    (GroupServiceState.wp_generatedEventAlreadyStored (X := fun _ _ => True) hstore)
    (fun present store' _ ⟨hsame, _, habsent⟩ => ?_) fun _ _ _ _ => hstate'
  subst hsame
  split
  · exact WpState.pure hstore ⟨hstate', trivial⟩
  · next hnot =>
    have hfresh := habsent (Bool.eq_false_iff.mpr hnot)
    refine WpState.liftProg_seq (wp_storeEvent hstore fun _ =>
      h.storeEvent hstore hgenerated fun _ => hfresh) (fun offset store' hstore' _ => ?_)
      fun _ _ _ _ => hstate'
    refine WpState.of_keeps (KeepsState.bind (Q := fun result => inv.projection result.2)
      (KeepsState.liftExcept fun result hresult => ?_) fun result hresult => ?_) hstate' hstore'
    · have htakes := applyItem_of_applyCanonicalEvent (Except.mapError_eq_ok.mp hresult)
      exact h.taken hstate.projection hgenerated (hstate.limits ▸ htakes)
    refine (KeepsState.set (hstate.takes hresult)).bind fun _ _ => ?_
    exact (KeepsState.liftProg (keeps_persistGroupProjection h hresult _)).bind fun _ _ =>
      KeepsState.pure trivial

/-- Trying a record keeps the invariant, whatever comes of it. -/
theorem keeps_materializeRecord {record : GroupOutboxRecord} (hrecord : inv.record record)
    (hturn : turn record) :
    inv.Keeps relay limits (GroupServiceState.materializeRecord relay.pocket record)
      fun _ => True := by
  have hsave : ∀ record' : GroupOutboxRecord, record'.key = record.key →
      record'.payload = record.payload →
      inv.Keeps relay limits (GroupServiceState.saveRecord record') fun _ => True :=
    fun _ hkey hpayload => keeps_saveRecord h (h.marked hrecord hkey hpayload)
  unfold GroupServiceState.materializeRecord
  split
  · exact (hsave (record.markSkipped _) rfl rfl).bind fun _ _ => KeepsState.pure trivial
  · refine (KeepsState.attempt (keeps_storeGeneratedEvent h hrecord hturn)).bind fun result _ => ?_
    cases result with
    | ok stored => exact (hsave (record.markStored _) rfl rfl).bind fun _ _ =>
      KeepsState.pure trivial
    | error error => exact (hsave (record.markFailed _ _) rfl rfl).bind fun _ _ => KeepsState.throw

/-- Trying records one after another keeps the invariant. -/
theorem keeps_materializeRecords {records : List GroupOutboxRecord}
    (hrecords : ∀ record ∈ records, inv.record record ∧ turn record) :
    inv.Keeps relay limits (GroupServiceState.materializeRecords relay.pocket records)
      fun _ => True := by
  induction records with
  | nil => exact KeepsState.pure trivial
  | cons record rest ih =>
    obtain ⟨hrecord, hturn⟩ := hrecords record (List.mem_cons_self ..)
    have hrest := ih fun other hother => hrecords other (List.mem_cons_of_mem _ hother)
    exact (keeps_materializeRecord h hrecord hturn).bind fun _ _ => hrest.bind fun _ _ =>
      KeepsState.pure trivial

/-- A replay generates events for the records of its plan. -/
theorem keeps_materializeWith {keep : GroupOutboxRecord → Bool}
    (hkeep : ∀ record, keep record = true → turn record) :
    inv.Keeps relay limits (GroupServiceState.materializeWith relay.pocket fun outbox =>
      outbox.replayPlanMatching keep) fun _ => True := by
  have hloop : ∀ steps, inv.Keeps relay limits (GroupServiceState.materializeLoop relay.pocket
      (fun outbox => outbox.replayPlanMatching keep) steps) fun _ => True := by
    intro steps
    induction steps with
    | zero => exact KeepsState.pure trivial
    | succ steps ih =>
      refine KeepsState.get.bind fun state hstate => ?_
      dsimp only
      split
      · exact KeepsState.pure trivial
      · refine (keeps_materializeRecords h fun record hrecord => ?_).bind fun _ _ =>
          ih.bind fun _ _ => KeepsState.pure trivial
        obtain ⟨⟨key, hget⟩, _, hmatch⟩ :=
          GroupOutbox.mem_replayPlanMatching.mp (List.mem_of_mem_take hrecord)
        exact ⟨hstate.records key record hget, hkeep record hmatch⟩
  exact KeepsState.get.bind fun _ _ => hloop _

/-- Merging a record keeps the invariant. -/
theorem keeps_mergeRecord {record : GroupOutboxRecord} (hrecord : inv.record record) :
    inv.Keeps relay limits (GroupServiceState.mergeRecord record) fun _ => True := by
  refine KeepsState.get.bind fun state hstate => ?_
  refine KeepsState.bind (Q :=
    fun result => inv.Holds relay limits { state with outbox := result.2 })
    (KeepsState.liftExcept fun result hresult => ?_) fun result hresult => ?_
  · obtain ⟨inserted, outbox⟩ := result
    rcases GroupOutbox.mergeIdempotent_cases (Except.mapError_eq_ok.mp hresult) with
      ⟨_, rfl, _⟩ | ⟨_, rfl, _⟩
    · exact hstate
    · exact hstate.update hrecord
  · obtain ⟨inserted, outbox⟩ := result
    refine KeepsState.bind (KeepsState.set hresult) fun _ _ => ?_
    split
    · exact KeepsState.liftProg (keeps_persistOutboxRecord h hrecord)
    · exact KeepsState.pure trivial

/-- Merging records keeps the invariant. -/
theorem keeps_mergeRecords {records : List GroupOutboxRecord}
    (hrecords : ∀ record ∈ records, inv.record record) :
    inv.Keeps relay limits (GroupServiceState.mergeRecords records) fun _ => True :=
  KeepsState.forM fun record hrecord => keeps_mergeRecord h (hrecords record hrecord)

/-- What follows the storing of an event keeps the invariant, when the group's records may have
their turn. -/
theorem keeps_afterSourceEventStored {event : PocketEvent} {eventClass : GroupEventClass}
    (hevent : inv.event event) (hclass : classifyGroupEvent event limits = .ok eventClass)
    (hturn : ∀ record, eventClass.groupId = some record.key.groupId → turn record)
    (offset : StoreOffset) :
    inv.Keeps relay limits
      (GroupServiceState.afterSourceEventStored relay.pocket event eventClass offset)
      fun _ => True := by
  refine KeepsState.get.bind fun state hstate => ?_
  refine KeepsState.bind (KeepsState.liftExcept fun _ _ => trivial) fun before _ => ?_
  refine KeepsState.bind (Q := fun result => inv.projection result.2)
    (KeepsState.liftExcept fun result hresult => ?_) fun result hresult => ?_
  · have htakes := applyItem_of_applyCanonicalEvent (Except.mapError_eq_ok.mp hresult)
    exact h.taken hstate.projection hevent (hstate.limits ▸ htakes)
  refine (KeepsState.set (hstate.takes hresult)).bind fun _ _ => ?_
  have hpersist : Tangle.Keeps relay.db.handle inv.store
      (GroupServiceState.persistClassProjection result.2 eventClass) fun _ => True := by
    unfold GroupServiceState.persistClassProjection
    split
    · exact keeps_persistGroupProjection h hresult _
    · exact Keeps.pure trivial
  refine (KeepsState.liftProg hpersist).bind fun _ _ => KeepsState.get.bind fun state hstate => ?_
  refine KeepsState.bind (KeepsState.liftExcept fun records hrecords =>
    h.planned hstate.projection hevent hclass (Except.mapError_eq_ok.mp hrecords))
    fun records hrecords => ?_
  refine (keeps_mergeRecords h hrecords).bind fun _ _ => ?_
  unfold GroupServiceState.materializeClass
  cases eventClass with
  | nonGroup => exact KeepsState.pure trivial
  | _ =>
    refine keeps_materializeWith h fun record hrecord => hturn record ?_
    rw [← beq_iff_eq.mp hrecord]
    rfl

end

/-- The event that is to be stored has its part, and with it in the store all parts hold. -/
structure Stores (inv : Upkeep) (relay : Relay) (limits : GroupLimitsConfig)
    (state : GroupServiceState) (store : PocketStore) (event : PocketEvent) : Prop where
  part : inv.event event
  holds : inv.Holds relay limits state
  stored : inv.store
    { store with events := store.events ++ [⟨event, relay.db.nextOffset store.events⟩] }

/-- What the event finds when it is stored under limits: it is of no group or it was accepted, and
its id is new. -/
structure Admitted (relay : Relay) (state : GroupServiceState) (store : PocketStore)
    (event : PocketEvent) (auth : GroupAuthContext) (eventClass : GroupEventClass) : Prop where
  accepted : eventClass = .nonGroup ∨
    (exec relay.db.handle (state.checkEvent event eventClass auth) store).1 = .ok ()
  fresh : relay.db.Faithful → ∀ other ∈ store.events, other.event.id ≠ event.id

/-- What a write has come to: everything is as it was, or the event was admitted and the parts
hold. -/
inductive Outcome (inv : Upkeep) (relay : Relay) (limits : GroupLimitsConfig)
    (state : GroupServiceState) (store : PocketStore) (event : PocketEvent)
    (auth : GroupAuthContext) : GroupServiceState → PocketStore → Prop
  | unchanged : Outcome inv relay limits state store event auth state store
  | stored {eventClass state' store'} : classifyGroupEvent event limits = .ok eventClass →
      Admitted relay state store event auth eventClass → inv.Holds relay limits state' →
      inv.store store' → Outcome inv relay limits state store event auth state' store'

/-- A write leaves everything as it is, or it goes on from a store that has its event. -/
theorem wp_storeGroupPocketEvent_stores (h : inv.Writes relay limits turn) {store : PocketStore}
    {event : PocketEvent} {eventClass : GroupEventClass} {auth : GroupAuthContext}
    {C : PocketStore → Prop} (hC : C store) (hinv : ∀ store, inv.store store → C store)
    (hclass : classifyGroupEvent event limits = .ok eventClass)
    (hturn : ∀ record, eventClass.groupId = some record.key.groupId → turn record)
    (hstores : Admitted relay state store event auth eventClass →
      inv.Stores relay limits state store event) :
    WpState relay.db.handle C
      (GroupServiceState.storeGroupPocketEvent relay.pocket event eventClass auth) state store
      (fun _ => inv.Outcome relay limits state store event auth)
      fun _ => inv.Outcome relay limits state store event auth := by
  refine WpState.get_seq (WpState.liftProg_seq (Y := fun _ store' => store' = store)
    (Wp.adapt (GroupServiceState.wp_checkEvent hC)) (fun _ checked _ ⟨hchecked, haccept⟩ => ?_)
    fun _ _ _ hsame => hsame ▸ .unchanged)
  subst hchecked
  refine WpState.liftProg_seq (R := fun present found => found = checked ∧
    present = relay.db.findById checked.events event.id) (Y := fun _ _ => False)
    (Wp.perform hC hC (fun present hread => ⟨rfl, (Except.ok.inj hread).symm⟩)
      fun e he => (nomatch he)) (fun present found _ ⟨hfound, hpresent⟩ => ?_)
    fun _ _ _ hX => hX.elim
  subst hfound hpresent
  split
  · exact WpState.pure hC .unchanged
  · next habsent =>
    have hfind := Option.not_isSome_iff_eq_none.mp habsent
    have hadmitted := fun hrefuses : relay.db.refuses found.events event = none =>
      (⟨.inr haccept, fun hdb => hdb.fresh hfind hrefuses⟩ :
        Admitted relay state found event auth eventClass)
    refine WpState.liftProg_seq (wp_storeEvent hC fun hrefuses =>
      hinv _ (hstores (hadmitted hrefuses)).stored)
      (fun offset stored _ ⟨hrefuses, hoffset, hstored⟩ => ?_)
      fun _ _ _ ⟨_, hsame⟩ => hsame ▸ .unchanged
    subst hoffset hstored
    obtain ⟨hevent, hstate, hstore⟩ := hstores (hadmitted hrefuses)
    have hafter := (KeepsState.adapt (f := GroupEventWriteError.storage)
      (keeps_afterSourceEventStored h hevent hclass hturn
        (relay.db.nextOffset found.events))).bind (R := fun _ : GroupEventWrite => True)
        fun offsets _ => KeepsState.pure
          (a := GroupEventWrite.stored (relay.db.nextOffset found.events :: offsets)) trivial
    refine ((WpState.of_keeps hafter hstate hstore).weaken hinv).mono ?_ ?_
    · exact fun _ _ _ _ ⟨hlast, hholds, _⟩ => .stored hclass (hadmitted hrefuses) hholds hlast
    · exact fun _ _ _ _ ⟨hlast, hholds⟩ => .stored hclass (hadmitted hrefuses) hholds hlast

/-- The relay's step leaves everything as it is, or it goes on from a store that has its event. -/
theorem wp_submit_stores (h : inv.Writes relay limits turn) {store : PocketStore}
    {event : PocketEvent} {auth : GroupAuthContext} {C : PocketStore → Prop} (hC : C store)
    (hinv : ∀ store, inv.store store → C store) (hlimits : state.limits = limits)
    (hturn : ∀ eventClass record, classifyGroupEvent event limits = .ok eventClass →
      eventClass.groupId = some record.key.groupId → turn record)
    (hstores : ∀ eventClass, classifyGroupEvent event limits = .ok eventClass →
      Admitted relay state store event auth eventClass →
      inv.Stores relay limits state store event) :
    WpState relay.db.handle C (relay.submit event auth) (some state) store
      (fun _ groups store' => ∃ state', groups = some state' ∧
        inv.Outcome relay limits state store event auth state' store')
      fun _ groups store' => ∃ state', groups = some state' ∧
        inv.Outcome relay limits state store event auth state' store' := by
  unfold Relay.submit handlePocketEvent
  split
  · exact WpState.pure hC ⟨state, rfl, .unchanged⟩
  refine WpState.get_seq ?_
  split
  · exact WpState.pure hC ⟨state, rfl, .unchanged⟩
  · next hgate =>
    have hclass : classifyGroupEvent event state.limits = .ok .nonGroup := (class_of_gate hgate).1
    rw [hlimits] at hclass
    have hadmitted := fun hfind hrefuses =>
      (⟨.inl rfl, fun hdb => hdb.fresh hfind hrefuses⟩ :
        Admitted relay state store event auth .nonGroup)
    refine WpState.liftProg ((wp_storePlainEvent hC fun hfind hrefuses =>
      hinv _ (hstores _ hclass (hadmitted hfind hrefuses)).stored).mono (fun _ store' _ hend => ?_)
      fun _ _ _ hsame => ⟨state, rfl, hsame ▸ .unchanged⟩)
    rcases hend with hsame | ⟨hfind, hrefuses, rfl⟩
    · exact ⟨state, rfl, hsame ▸ .unchanged⟩
    · have hnext := hstores _ hclass (hadmitted hfind hrefuses)
      exact ⟨state, rfl, .stored hclass (hadmitted hfind hrefuses) hnext.holds hnext.stored⟩
  · next eventClass hnonGroup hgate =>
    have hclass : classifyGroupEvent event state.limits = .ok eventClass := (class_of_gate hgate).1
    rw [hlimits] at hclass
    refine WpState.get_seq (WpState.seq (wp_withGroups (Y := fun _ _ _ => False)
      (wp_storeGroupPocketEvent_stores h hC hinv hclass (fun record => hturn _ record hclass)
        (hstores _ hclass))) (fun result groups store' hstore' ⟨state', hgroups, hend⟩ => ?_)
      fun _ _ _ _ hX => hX.elim)
    subst hgroups
    rcases result with (error | error) | (offsets | _)
    · exact WpState.pure hstore' ⟨state', rfl, hend⟩
    · exact WpState.throw hstore' ⟨state', rfl, hend⟩
    · exact WpState.pure hstore' ⟨state', rfl, hend⟩
    · exact WpState.pure hstore' ⟨state', rfl, hend⟩

/-- The relay's step keeps the parts when the event it stores has its part. -/
theorem wp_submit (h : inv.Writes relay limits turn) {store : PocketStore} {event : PocketEvent}
    {auth : GroupAuthContext} (hstate : inv.Holds relay limits state) (hstore : inv.store store)
    (hplain : classifyGroupEvent event limits = .ok .nonGroup → inv.event event)
    (hturn : ∀ eventClass record, classifyGroupEvent event limits = .ok eventClass →
      eventClass.groupId = some record.key.groupId → turn record)
    (hevent : ∀ eventClass, classifyGroupEvent event limits = .ok eventClass →
      (exec relay.db.handle (state.checkEvent event eventClass auth) store).1 = .ok () →
      inv.event event) :
    WpState relay.db.handle inv.store (relay.submit event auth) (some state) store
      (fun _ groups _ => ∃ state', groups = some state' ∧ inv.Holds relay limits state')
      fun _ groups _ => ∃ state', groups = some state' ∧ inv.Holds relay limits state' := by
  have hend : ∀ {groups : Option GroupServiceState} {store' : PocketStore},
      (∃ state', groups = some state' ∧
        inv.Outcome relay limits state store event auth state' store') →
      ∃ state', groups = some state' ∧ inv.Holds relay limits state' := by
    intro groups store' ⟨state', hgroups, houtcome⟩
    cases houtcome with
    | unchanged => exact ⟨state, hgroups, hstate⟩
    | stored _ _ hholds _ => exact ⟨state', hgroups, hholds⟩
  refine (wp_submit_stores h hstore (fun _ h => h) hstate.limits hturn
    fun eventClass hclass hadmitted => ?_).mono (fun _ _ _ _ => hend) fun _ _ _ _ => hend
  have hevent : inv.event event := by
    rcases hadmitted.accepted with rfl | haccept
    · exact hplain hclass
    · exact hevent eventClass hclass haccept
  exact ⟨hevent, hstate, h.storeEvent hstore hevent hadmitted.fresh⟩

/-! ## Starts -/

section
variable (h : inv.Starts relay limits) {now : UnixTimestamp}
include h

/-- Writing the whole projection keeps the store's part. -/
theorem keeps_putSnapshot {projection : GroupProjection} (hprojection : inv.projection projection) :
    Tangle.Keeps relay.db.handle inv.store (persistGroupProjectionSnapshot projection)
      fun _ => True := by
  have hclear : Tangle.Keeps relay.db.handle inv.store (clearExtraTable .projection)
      fun _ => True :=
    Keeps.bind (keeps_scanExtraRecords (Q := fun _ => True) fun _ _ => trivial) fun records _ =>
      Keeps.forM fun record _ => keeps_deleteExtraRecord fun _ hstore => h.eraseRow hstore
  refine hclear.bind fun _ _ => Keeps.bind (Keeps.forM fun record hrecord =>
    keeps_putExtraRecord fun store hstore => ?_) fun _ _ => ?_
  · obtain ⟨key, hkey, hrow⟩ := mem_snapshotRows.mp hrecord
    exact hkey ▸ h.putRow hstore hprojection hrow
  · cases projection.checkpoint with
    | none => exact Keeps.throw
    | some checkpoint => exact keeps_putExtraRecord fun _ hstore => h.putCheckpoint hstore

/-- A scan finds events of the store, and a scan of the whole store classifies all of them. -/
theorem keeps_scanCanonical (lastOffset : Option StoreOffset) :
    Tangle.Keeps relay.db.handle inv.store (scanCanonicalGroupEventsAfter lastOffset limits)
      fun scan => (∀ item ∈ scan.events, inv.event item.event) ∧
        (lastOffset = none → ∃ store, inv.store store ∧
          ∀ item ∈ store.events, (classifyGroupEvent item.event limits).Succeeds) := by
  refine Keeps.bind (Q := fun stored => ∃ store, inv.store store ∧
    PocketDb.scanAfter store.events lastOffset = .ok stored) (keeps_scanEventsAfter
      fun store stored hstore hscan => ⟨store, hstore, hscan⟩)
    fun stored ⟨store, hstore, hstored⟩ => Keeps.liftExcept fun scan hscan => ?_
  obtain ⟨hsucceeds, hmem⟩ := scanClassified_eq_ok (Except.mapError_eq_ok.mp hscan)
  refine ⟨fun item hitem => ?_, fun hnone => ⟨store, hstore, fun item hitem => ?_⟩⟩
  · have hfound := ((hmem item).mp hitem).1
    exact h.scanned hstore ((mem_of_scanAfter hstored item).mp hfound).1
  · subst hnone
    cases hstored
    exact hsucceeds item hitem

/-- Events of the store are taken one after another. -/
theorem applyItems_keeps {projection projection' : GroupProjection} {items : List StoredEvent}
    (hprojection : inv.projection projection) (hitems : ∀ item ∈ items, inv.event item.event)
    (happly : applyItems limits projection items = .ok projection') : inv.projection projection' :=
  Except.foldlM_invariant inv.projection
    (fun _ item _ hitem hp hstep => h.taken hp (hitems item hitem) hstep) hprojection happly

/-- Loading the storage keeps the store's part, and what is loaded has the parts of the projection
and of the records. -/
theorem keeps_loadGroupStorage :
    Tangle.Keeps relay.db.handle inv.store (loadGroupStorage limits now) fun storage =>
      inv.projection storage.projection ∧
        ∀ key record, storage.outbox.get key = some record → inv.record record := by
  have hstatus : Tangle.Keeps relay.db.handle inv.store validateGroupCheckpoint fun _ => True :=
    Keeps.bind (keeps_getExtraRecord _ _) fun _ _ => Keeps.liftExcept fun _ _ => trivial
  have hscan : ∀ table, Tangle.Keeps relay.db.handle inv.store
      (StoreM.scanExtraRecords BaseRelayError.error table)
      fun records => ∃ store, inv.store store ∧ records = (store.rows table).toList :=
    fun table => keeps_scanExtraRecords fun store hstore => ⟨store, hstore, rfl⟩
  refine hstatus.bind fun status _ => (hscan .outbox).bind fun outboxRecords houtbox => ?_
  obtain ⟨outboxStore, houtboxStore, houtboxRows⟩ := houtbox
  have hrest : ∀ projection, inv.projection projection →
      Tangle.Keeps relay.db.handle inv.store (do
        return (⟨projection, ← liftM (loadGroupOutbox outboxRecords)⟩ : GroupStorageState) :
          BaseM GroupStorageState) fun storage => inv.projection storage.projection ∧
        ∀ key record, storage.outbox.get key = some record → inv.record record := by
    intro projection hprojection
    refine Keeps.bind (Q := fun outbox => ∀ key record, outbox.get key = some record →
      inv.record record) (Keeps.liftExcept fun outbox hload key record hget => ?_)
      fun outbox houtbox => Keeps.pure ⟨hprojection, houtbox⟩
    subst houtboxRows
    exact h.loadedRecords houtboxStore hload hget
  split
  · refine (keeps_scanCanonical h none).bind fun scan ⟨hitems, _⟩ => ?_
    refine Keeps.bind (Q :=
      fun report : ProjectionRebuildReport => inv.projection report.projection)
      (Keeps.liftExcept fun report hreport => ?_) fun report hreport =>
        (keeps_putSnapshot h hreport).bind fun _ _ => keeps_validateRebuiltGroupProjection.bind
          fun _ _ => hrest _ hreport
    have hrebuild := @rebuildGroupProjection_projection scan.events limits now
    rw [Except.mapError_eq_ok.mp hreport, Except.functor_map_ok] at hrebuild
    obtain ⟨built, hbuilt, hprojection⟩ := Except.map_eq_ok.mp hrebuild.symm
    rw [← hprojection]
    exact h.dated (applyItems_keeps h h.new
      (fun item hitem => hitems item (mem_sortByTuple.mp hitem))
      hbuilt)
  · refine (hscan .projection).bind fun records hrecords => ?_
    obtain ⟨held, hheld, hrows⟩ := hrecords
    refine Keeps.bind (Q := inv.projection) (Keeps.liftExcept fun projection hload =>
      h.loaded hheld (hrows ▸ hload)) fun projection hprojection => ?_
    refine Keeps.bind (Q := inv.projection) ?_ fun final hfinal => hrest _ hfinal
    refine (keeps_scanCanonical h _).bind fun scan ⟨hitems, _⟩ => ?_
    split
    · exact Keeps.pure hprojection
    · refine Keeps.bind (Q := inv.projection) (Keeps.liftExcept fun applied happlied =>
        applyItems_keeps h hprojection (fun item hitem => hitems item (mem_sortByTuple.mp hitem))
          (Except.mapError_eq_ok.mp happlied)) fun applied happlied => ?_
      exact (keeps_putSnapshot h (h.dated happlied)).bind fun _ _ =>
        keeps_validateRebuiltGroupProjection.bind fun _ _ => Keeps.pure (h.dated happlied)

/-- Replaying one event and merging what it owes. -/
theorem keeps_deriveRecordsOf {projection : GroupProjection} {item : StoredEvent}
    (hprojection : inv.projection projection) (hitem : inv.event item.event) :
    inv.Keeps relay limits (GroupServiceState.deriveRecordsOf relay.pocket projection item)
      inv.projection := by
  have hwrites := h.toWrites
  refine KeepsState.get.bind fun state hstate => ?_
  refine KeepsState.bind (KeepsState.liftExcept fun eventClass hclass =>
    Except.mapError_eq_ok.mp hclass) fun eventClass hclass => ?_
  refine KeepsState.bind (KeepsState.liftExcept fun _ _ => trivial) fun before _ => ?_
  refine KeepsState.bind (Q := fun result => inv.projection result.2)
    (KeepsState.liftExcept fun result hresult => ?_) fun result hresult => ?_
  · have htakes := applyItem_of_applyCanonicalEvent (Except.mapError_eq_ok.mp hresult)
    exact hwrites.taken hprojection hitem (hstate.limits ▸ htakes)
  obtain ⟨_, projection'⟩ := result
  dsimp only
  split
  · exact KeepsState.pure hresult
  · refine KeepsState.bind (KeepsState.liftExcept fun records hrecords =>
      hwrites.planned hresult hitem (hstate.limits ▸ hclass) (Except.mapError_eq_ok.mp hrecords))
      fun records hrecords => ?_
    exact (keeps_mergeRecords hwrites hrecords).bind fun _ _ => KeepsState.pure hresult

/-- A start that goes on to its end could classify every event of the store. -/
theorem keeps_finishStart :
    inv.Keeps relay limits (GroupServiceState.finishStart relay.pocket) fun _ =>
      ∃ store, inv.store store ∧
        ∀ item ∈ store.events, (classifyGroupEvent item.event limits).Succeeds := by
  have hmissing : inv.Keeps relay limits
      (GroupServiceState.deriveMissingOutboxRecords relay.pocket) fun _ =>
        ∃ store, inv.store store ∧
          ∀ item ∈ store.events, (classifyGroupEvent item.event limits).Succeeds := by
    refine KeepsState.get.bind fun state hstate => ?_
    obtain rfl := hstate.limits
    refine (KeepsState.liftProg (keeps_scanCanonical h none)).bind
      fun scan ⟨hitems, hclassified⟩ => ?_
    exact KeepsState.bind (KeepsState.foldlM (Q := inv.projection) h.new
      fun projection hprojection item hitem =>
        keeps_deriveRecordsOf h hprojection (hitems item (mem_sortByTuple.mp hitem)))
      fun _ _ => KeepsState.pure (hclassified rfl)
  exact hmissing.bind fun _ hclassified => (keeps_materializeWith h.toWrites fun _ _ =>
    trivial).bind fun _ _ => KeepsState.pure hclassified

end

/-- The key of a configured signer is that of its secret. -/
theorem publicKey_of_configuredSigner {pocket : PocketTypes} {config : GroupRuntimeConfig}
    {signer : RelaySigner} (h : GroupServiceState.configuredSigner pocket config = .ok signer) :
    pocket.publicKey signer.secret = .ok signer.publicKey := by
  unfold GroupServiceState.configuredSigner at h
  split at h
  · obtain ⟨publicKey, hkey, h⟩ := Except.bind_eq_ok.mp (Except.mapError_eq_ok.mp h)
    cases h
    exact hkey
  · cases h

/-- A start keeps the parts. They hold of the service it makes, and the limits classify every event
of a store that the start has seen. -/
theorem keeps_start {config : GroupRuntimeConfig} {now : UnixTimestamp}
    (h : inv.Starts relay config.limits) :
    Tangle.Keeps relay.db.handle inv.store (relay.start config now) fun groups =>
      ∀ state, groups = some state → inv.Holds relay config.limits state ∧
        ∃ store, inv.store store ∧
          ∀ item ∈ store.events, (classifyGroupEvent item.event config.limits).Succeeds := by
  unfold Relay.start GroupServiceState.fromConfig
  split
  · exact Keeps.pure fun _ h => (nomatch h)
  refine Keeps.bind (Keeps.liftExcept fun signer hsigner => publicKey_of_configuredSigner hsigner)
    fun signer hsigner => (keeps_loadGroupStorage h).bind fun storage hstorage => ?_
  have hstate : inv.Holds relay config.limits
      (GroupServiceState.ofStorage config signer storage) :=
    ⟨hstorage.1, hstorage.2, hsigner, h.authorized _, rfl⟩
  refine Keeps.bind (Q := fun started => inv.Holds relay config.limits started ∧
    ∃ store, inv.store store ∧
      ∀ item ∈ store.events, (classifyGroupEvent item.event config.limits).Succeeds)
    ((keeps_finishStart h).run hstate fun result state started hkept hclassified hread => ?_)
    fun started hstarted => Keeps.pure fun state h => ?_
  · obtain ⟨done, hdone, rfl⟩ := Except.map_eq_ok.mp hread
    exact ⟨hkept, hclassified done hdone⟩
  · cases h
    exact hstarted

end Upkeep

end Tangle
