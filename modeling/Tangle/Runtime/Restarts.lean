import Tangle.Runtime.Runs

/-!
# What a restart gives back

Two results about starts. A service that has run without interruption decides as one that is loaded
from its store would, whether the projection is rebuilt or read (`reload_decidesAlike`). And after
any crashes of writes and of starts that had loaded, a start that succeeds has made up for what was
lost: every stored event has the records it owes, each of them final, nothing is stored twice, and
every stored event has been taken (`start_complete`).
-/

namespace Tangle

/-! ## Reloading -/

section
variable {relay : Relay} {state : GroupServiceState} {store store' : PocketStore}

/-- The tables of a store with another checkpoint, or with one that is not trusted. -/
theorem PocketStore.Sound.withCheckpoint {sources : Sources} (h : store.Sound relay sources)
    {rows : BTreeMap Text ExtraValue}
    (hrows : rows = store.checkpoint ∨ ∀ checkpoint,
      PocketStore.checkpointStatus { store with checkpoint := rows } ≠ .ok (.current checkpoint)) :
    PocketStore.Sound relay sources { store with checkpoint := rows } := by
  rcases hrows with rfl | huntrusted
  · exact h
  · have hnone : ∀ item, ¬PocketStore.CheckpointCovers { store with checkpoint := rows } item :=
      fun item ⟨checkpoint, hcurrent, _⟩ => huntrusted checkpoint hcurrent
    obtain ⟨projection, hheld, hcovers⟩ := h.rows
    exact
      { arrived := h.arrived
        ids := h.ids
        origin := h.origin
        rows := ⟨projection, hheld,
          hcovers.mono (fun item hitem => absurd hitem.2 (hnone item)) fun _ hitem => hitem⟩
        checkpoint := fun checkpoint _ hcurrent => absurd hcurrent (huntrusted checkpoint)
        created := fun _ _ _ _ _ other _ _ => hnone other
        records := h.records }

/-- **A reload preserves every decision.** After any run of writes and restarts that no storage
error and no stop interrupts, the projection in memory and the one that is loaded from the store
lead to the same decision on every write and every read. The load may find the store's checkpoint,
or one that is missing or stale, under which it rebuilds. -/
theorem reload_decidesAlike
    (hrun : relay.Leads Relay.Uninterrupted (.down .empty) (.up (some state) store))
    {rows : BTreeMap Text ExtraValue}
    (hrows : rows = store.checkpoint ∨ ∀ checkpoint,
      PocketStore.checkpointStatus { store with checkpoint := rows } ≠ .ok (.current checkpoint))
    {limits : GroupLimitsConfig} {now : UnixTimestamp} {storage : GroupStorageState}
    (hload : exec relay.db.handle (loadGroupStorage limits now) { store with checkpoint := rows } =
      (.ok storage, store')) :
    (∀ authority policy event eventClass auth,
      GroupWritePolicy.checkEvent ⟨state.projection, authority, policy⟩ event eventClass auth =
        GroupWritePolicy.checkEvent ⟨storage.projection, authority, policy⟩ event eventClass auth) ∧
    ∀ authority event reader limits,
      GroupReadGate.screenEvent ⟨state.projection, authority⟩ event reader limits =
        GroupReadGate.screenEvent ⟨storage.projection, authority⟩ event reader limits := by
  have hkept := Relay.Leads.kept .all (fun h => ⟨h.orderly, .inr h.not_failed⟩) hrun
  have hserves : Serves relay _ (fun _ => True) state store := hkept
  have hlive : ProjectionReflects .widest (· ∈ store.events) state.projection :=
    hserves.covers.mono (fun _ hitem => ⟨hitem, .inl trivial⟩) fun _ hitem => hitem
  have hsound := hserves.sound.withCheckpoint hrows
  obtain ⟨_, hloaded⟩ := (wp_loadGroupStorage hsound).exec hload
  have hreloaded : ProjectionReflects .widest (· ∈ store.events) storage.projection :=
    hloaded.projection
  have halike := hlive.decidesLike hserves.sound.arrived.consistent hreloaded
  exact ⟨fun authority policy event eventClass auth =>
    halike.checkEvent hlive.deletedHaveTombstones hreloaded.deletedHaveTombstones eventClass auth,
    fun authority event reader limits => halike.screenEvent reader limits⟩

end

/-! ### A group that is reloaded -/

namespace Sample

/-- Another key is put into the group, and the relay is restarted. -/
def farmRestarted : List ScriptLine :=
  [.start config 100, .submit (farmEvent owner 9007 10 []) (authAs owner),
    .submit (farmEvent owner 9000 20 [["p", String.ofList member.text]]) (authAs owner), .stop,
    .start config 200]

end Sample

section
open Sample

/-- Without its checkpoint the store of the group is rebuilt from the events, and the projection
that this makes hides no more and no less than the service's own. -/
theorem reload_decidesAlike_rebuilt : ∃ state store storage store',
    relay.Leads Relay.Uninterrupted (.down .empty) (.up (some state) store) ∧
      exec relay.db.handle (loadGroupStorage state.limits 300) { store with checkpoint := ∅ } =
        (.ok storage, store') ∧
      ∀ event reader, GroupReadGate.screenEvent ⟨state.projection, state.authority⟩ event reader
          state.limits =
        GroupReadGate.screenEvent ⟨storage.projection,
          state.authority⟩ event reader state.limits := by
  have hscript : relay.ScriptEnds Relay.interruptsNothing (farmRestarted ++ []) fun state store =>
      (exec relay.db.handle (loadGroupStorage state.limits 300)
        { store with checkpoint := ∅ }).1.toOption.isSome = true := by
    decide +kernel
  obtain ⟨w, state, store, _, hbefore, hafter, hloads⟩ :=
    hscript.leads Relay.uninterrupted_of_interruptsNothing
  have hrun := hbefore.trans hafter
  rcases hload : exec relay.db.handle (loadGroupStorage state.limits 300)
    { store with checkpoint := ∅ } with ⟨result, store'⟩
  rw [hload] at hloads
  cases result with
  | error error => cases hloads
  | ok storage =>
    refine ⟨state, store, storage, store', hrun, hload, fun event reader => ?_⟩
    have huntrusted : ∀ checkpoint, PocketStore.checkpointStatus { store with checkpoint := ∅ } ≠
        .ok (.current checkpoint) := by
      intro checkpoint hcurrent
      rw [PocketStore.checkpointStatus, BTreeMap.getElem?_empty] at hcurrent
      cases hcurrent
    exact (reload_decidesAlike hrun (.inr huntrusted) hload).2 state.authority event reader
      state.limits

end

/-! ## Starting after crashes -/

section
variable {relay : Relay} {state : GroupServiceState} {store store' : PocketStore}

/-- The records that a start plans for an event of a store: those the event owes on the projection
of the group events before it, in the order of their tuples. -/
def PlannedAtStart (relay : Relay) (state : GroupServiceState) (store : PocketStore)
    (item : StoredEvent) (records : List GroupOutboxRecord) : Prop :=
  ∃ earlier later before,
    GroupServiceState.InTupleOrder state.limits store (earlier ++ item :: later) ∧
    applyItems state.limits .new earlier = .ok before ∧ state.PlansOn relay before item records

/-- The record is stored, and an event with the id of its generated event is in the store, or it is
skipped. -/
def Settled (relay : Relay) (events : List StoredEvent) (record : GroupOutboxRecord) : Prop :=
  (∃ builder event, GroupGeneratedEventBuilder.signPayloadPocket relay.pocket builder
    record.payload =
      .ok event ∧ record.status = .stored event.id ∧ ∃ item ∈ events, item.event.id = event.id) ∨
    ∃ reason, record.status = .skipped reason

/-- **No generated effect is lost or stored twice.** After any run in which writes were stopped
between any two operations, and so were starts that had loaded the store, a start that succeeds
leaves every stored group event that the relay did not sign with all its planned records, every
record of the outbox settled, no two stored events with one id, and a projection that has seen
exactly the stored events. -/
theorem start_complete (hdb : relay.db.Faithful)
    (hrun : relay.Leads relay.Orderly (.down .empty) (.down store)) {config : GroupRuntimeConfig}
    {now : UnixTimestamp}
    (hstart : relay.Step (.down store) (.started config now) (.up (some state) store')) :
    (∀ item ∈ store'.events, classifyGroupEvent item.event state.limits ≠ .ok .nonGroup →
      item.event.pubkey ≠ state.builder.relayPubkey → ∃ records,
        PlannedAtStart relay state store item records ∧ ∀ record ∈ records, ∃ record',
          state.outbox.get record.key = some record' ∧ record'.payload = record.payload ∧
          Settled relay store'.events record') ∧
    (∀ key record, state.outbox.get key = some record → Settled relay store'.events record) ∧
    (store'.events.Pairwise fun a b => a.event.id ≠ b.event.id) ∧
    ProjectionReflects .widest (· ∈ store'.events) state.projection := by
  have hstopped := Relay.Leads.kept .onlyDeletions (fun h => ⟨h, .inl rfl⟩) hrun
  have hsound : store.Sound relay ⟨fun _ => True, fun _ => True⟩ :=
    PocketStore.Sound.within hstopped ⟨fun _ _ => trivial, fun _ _ => trivial⟩
  cases hstart with
  | started hexec =>
    have hend := (wp_start hsound fun _ _ => trivial).exec hexec
    rcases hend with ⟨hnone, _⟩ | ⟨_, hsome, hstarted⟩
    · cases hnone
    cases hsome
    obtain ⟨signer, storage, loaded, _, hloaded, hfinished⟩ := hstarted.setup
    have hserves := hstarted.serves
    have hsettled : ∀ key record, state.outbox.get key = some record →
        Settled relay store'.events record := by
      intro key record hget
      have hrecord := hserves.records key record hget
      have hnot : record ∉ state.outbox.replayPlan := by
        rw [hfinished.replayed]
        exact List.not_mem_nil
      have hfinal : record.isRetryable = false := by
        by_contra hretry
        refine hnot (GroupOutbox.mem_replayPlanMatching.mpr ⟨⟨key, hget⟩, ?_, rfl⟩)
        exact Bool.not_eq_false _ ▸ hretry
      cases hstatus : record.status with
      | pending => rw [GroupOutboxRecord.isRetryable, hstatus] at hfinal; cases hfinal
      | skipped reason => exact .inr ⟨reason, hstatus⟩
      | failed retryable =>
        cases retryable with
        | true => rw [GroupOutboxRecord.isRetryable, hstatus] at hfinal; cases hfinal
        | false => exact absurd hstatus hrecord.retried
      | stored id =>
        obtain ⟨⟨event, ⟨builder, _, _, hsign⟩, rfl⟩, hpresent⟩ := hrecord.stored id hstatus
        exact .inl ⟨builder, event, hsign, hstatus, hpresent hdb⟩
    refine ⟨fun item hitem hgroup hauthor => ?_, hsettled, hserves.sound.ids hdb, ?_⟩
    · -- the events that the start has added are the relay's own
      have hsetup := hfinished.served.continues.toSameSetup
      obtain ⟨items, hevents, _, hsigned⟩ := hfinished.served.applied
      rw [hevents, hloaded.events] at hitem
      have hmem : item ∈ store.events := by
        refine (List.mem_append.mp hitem).resolve_right fun hnew => hauthor ?_
        rw [hsetup.builder]
        exact (hsigned item hnew).1
      obtain ⟨planned, ⟨hplanned, hsorted⟩, hderived⟩ := hfinished.derived
      rw [← hsetup.limits] at hplanned
      simp only [hloaded.events] at hplanned
      obtain ⟨earlier, later, rfl⟩ := List.append_of_mem ((hplanned item).mpr ⟨hmem, hgroup⟩)
      obtain ⟨before, records, hbefore, hplan, hheld⟩ := hderived earlier item later rfl hauthor
      refine ⟨records, ⟨earlier, later, before, ⟨hplanned, hsorted⟩, hbefore, hplan⟩,
        fun record hrecord => ?_⟩
      obtain ⟨record', hget, hpayload⟩ := hheld record hrecord
      exact ⟨record', hget, hpayload, hsettled _ _ hget⟩
    · exact hserves.covers.mono (fun _ hitem => ⟨hitem, .inl trivial⟩) fun _ hitem => hitem

end

/-! ### A write that is stopped -/

namespace Sample

def putOther : PocketEvent :=
  farmEvent owner 9000 20 [["p", String.ofList member.text]]

/-- A change of membership is stopped once its event is stored. -/
def farmStopped : List ScriptLine :=
  [.start config 100, .submit (farmEvent owner 9007 10 []) (authAs owner),
    .submitUntil putOther (authAs owner) 2]

end Sample

section
open Sample

/-- A relay is stopped between storing a put-user and planning its snapshots. The next start derives
the records that the stored event owes. -/
theorem start_complete_putOther : ∃ stopped state store,
    relay.Leads relay.Orderly (.down .empty) (.down stopped) ∧
      relay.Step (.down stopped) (.started config 200) (.up (some state) store) ∧
      ∃ item ∈ store.events, item.event = putOther ∧ ∃ records,
        PlannedAtStart relay state stopped item records ∧ ∀ record ∈ records, ∃ record',
          state.outbox.get record.key = some record' ∧ record'.payload = record.payload ∧
          Settled relay store.events record' := by
  have hscript : relay.ScriptEnds Relay.stopsNoStart (farmStopped ++ [.start config 200])
      fun state store => (store.events.any fun item => decide (item.event = putOther)) = true ∧
        classifyGroupEvent putOther state.limits ≠ .ok .nonGroup ∧
        putOther.pubkey ≠ state.builder.relayPubkey := by
    decide +kernel
  obtain ⟨stopped, state, store, hrun, hstart, hstored, hclass, hauthor⟩ :=
    hscript.started Relay.orderly_of_stopsNoStart
  obtain ⟨item, hitem, heq⟩ := List.any_eq_true.mp hstored
  have hput : item.event = putOther := of_decide_eq_true heq
  obtain ⟨hplanned, _⟩ := start_complete plainDb_faithful hrun hstart
  exact ⟨stopped, state, store, hrun, hstart, item, hitem, hput,
    hplanned item hitem (hput ▸ hclass) (hput ▸ hauthor)⟩

end

end Tangle
