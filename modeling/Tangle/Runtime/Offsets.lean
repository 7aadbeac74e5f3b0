import Tangle.Runtime.AcceptedEvents
import Tangle.Runtime.Faults

/-!
# The offsets of a write

A write reports the offsets of the events it has stored, its own first and then those of the events
it generated. When it succeeds these are all of them, and nothing of its group is left to generate
(`wp_materializeWith_appends`, `wp_afterSourceEventStored_appends`). When it fails although its
event can be taken and what it owes can be generated, an operation of the store has failed.
-/

namespace Tangle

/-- Behind the events of before the store holds those of the offsets. -/
def Appends (store store' : PocketStore) (offsets : List StoreOffset) : Prop :=
  ∃ items, store'.events = store.events ++ items ∧ items.map StoredEvent.storeOffset = offsets

namespace Appends

variable {store store₁ store' : PocketStore} {offsets offsets' : List StoreOffset}

/-- No event more appends no offset. -/
theorem of_events (h : store'.events = store.events) : Appends store store' [] :=
  ⟨[], h.trans (List.append_nil _).symm, rfl⟩

/-- Offsets appended one after another. -/
theorem trans (h : Appends store store₁ offsets) (h' : Appends store₁ store' offsets') :
    Appends store store' (offsets ++ offsets') := by
  obtain ⟨items, hevents, rfl⟩ := h
  obtain ⟨items', hevents', rfl⟩ := h'
  refine ⟨items ++ items', ?_, List.map_append⟩
  rw [hevents', hevents, List.append_assoc]

/-- A store with the same events has the same appended. -/
theorem of_eq (h : Appends store store₁ offsets) (hevents : store'.events = store₁.events) :
    Appends store store' offsets := by
  have := h.trans (of_events hevents)
  rwa [List.append_nil] at this

end Appends

/-- The records are final, and the others as they were. -/
structure MadeFinal (records : List GroupOutboxRecord) (outbox outbox' : GroupOutbox) : Prop where
  final : ∀ record ∈ records, ∃ record', outbox'.get record.key = some record' ∧
    record'.isRetryable = false
  others : ∀ key, (∀ record ∈ records, record.key ≠ key) → outbox'.get key = outbox.get key

namespace MadeFinal

variable {record : GroupOutboxRecord} {records batch plan : List GroupOutboxRecord}
  {outbox outbox₁ outbox' : GroupOutbox}

/-- No record has become final. -/
theorem nil : MadeFinal [] outbox outbox where
  final _ h := nomatch h
  others _ _ := rfl

/-- A record that is final takes the place of the one tried. -/
theorem update {record' : GroupOutboxRecord} (hkey : record'.key = record.key)
    (hfinal : record'.isRetryable = false) : MadeFinal [record] outbox (outbox.update record') where
  final r hr := by
    cases List.mem_singleton.mp hr
    exact ⟨record', by rw [GroupOutbox.get_update, if_pos hkey], hfinal⟩
  others key hne := by
    rw [GroupOutbox.get_update, if_neg (hkey ▸ hne record (.head _))]

/-- A record, and then others, which have not its key. -/
theorem cons (h : MadeFinal [record] outbox outbox₁) (h' : MadeFinal records outbox₁ outbox')
    (hnot : ∀ r ∈ records, r.key ≠ record.key) : MadeFinal (record :: records) outbox outbox' where
  final r hr := by
    rcases List.mem_cons.mp hr with rfl | hr
    · rw [h'.others r.key hnot]
      exact h.final r (.head _)
    · exact h'.final r hr
  others key hne := by
    rw [h'.others key fun r hr => hne r (List.mem_cons_of_mem _ hr)]
    exact h.others key fun r hr => List.mem_singleton.mp hr ▸ hne record (List.mem_cons_self ..)

/-- A batch of a plan, and then the rest of it. -/
theorem of_batch (h : MadeFinal batch outbox outbox₁) {rest : List GroupOutboxRecord}
    (h' : MadeFinal rest outbox₁ outbox') (hsub : ∀ r ∈ batch, r ∈ plan)
    (hrest : ∀ r, r ∈ rest ↔ r ∈ plan ∧ ∀ other ∈ batch, other.key ≠ r.key) :
    MadeFinal plan outbox outbox' where
  final r hr := by
    by_cases hin : ∃ other ∈ batch, other.key = r.key
    · obtain ⟨other, hother, hkey⟩ := hin
      rw [← hkey, h'.others other.key fun r hr heq => ((hrest r).mp hr).2 other hother heq.symm]
      exact h.final other hother
    · exact h'.final r ((hrest r).mpr ⟨hr, fun other hother hkey => hin ⟨other, hother, hkey⟩⟩)
  others key hne := by
    rw [h'.others key fun r hr => hne r ((hrest r).mp hr).1]
    exact h.others key fun r hr => hne r (hsub r hr)

end MadeFinal

namespace GroupOutbox

/-- Merges records one after another. -/
def mergeAll (outbox : GroupOutbox) (records : List GroupOutboxRecord) :
    Except GroupError GroupOutbox :=
  records.foldlM (fun outbox record => Prod.snd <$> outbox.mergeIdempotent record) outbox

/-- What is in the outbox after a merge was there before or is the record. -/
theorem get_of_mergeIdempotent {outbox outbox' : GroupOutbox} {record found : GroupOutboxRecord}
    {inserted : Bool} {key : GroupOutboxKey}
    (h : outbox.mergeIdempotent record = .ok (inserted, outbox'))
    (hget : outbox'.get key = some found) : outbox.get key = some found ∨ found = record := by
  rcases mergeIdempotent_cases h with ⟨_, rfl, _⟩ | ⟨_, rfl, _⟩
  · exact .inl hget
  · rw [get_update] at hget
    split at hget
    · cases hget
      exact .inr rfl
    · exact .inl hget

end GroupOutbox

/-- When the replay of an outbox is final, a record that the replay would have included waits no
longer. -/
theorem MadeFinal.settled {outbox outbox' : GroupOutbox} {keep : GroupOutboxRecord → Bool}
    {key : GroupOutboxKey} {record : GroupOutboxRecord}
    (h : MadeFinal (outbox.replayPlanMatching keep) outbox outbox') (hkeyed : outbox.Keyed)
    (hget : outbox'.get key = some record) (hkeep : outbox.get key = some record →
      record.isRetryable = true → keep record = true) : record.isRetryable = false := by
  by_contra hretry
  have hretry : record.isRetryable = true := Bool.not_eq_false _ ▸ hretry
  by_cases hin : ∃ other ∈ outbox.replayPlanMatching keep, other.key = key
  · obtain ⟨other, hother, rfl⟩ := hin
    obtain ⟨found, hfound, hdone⟩ := h.final other hother
    cases hfound.symm.trans hget
    exact Bool.false_ne_true (hdone.symm.trans hretry)
  · have hbefore := (h.others key fun other hother heq => hin ⟨other, hother, heq⟩).symm.trans hget
    exact hin ⟨record, GroupOutbox.mem_replayPlanMatching.mpr
      ⟨⟨key, hbefore⟩, hretry, hkeep hbefore hretry⟩, hkeyed key record hbefore⟩

/-- An outbox whose records stand under their own keys keeps that with one record more. -/
theorem GroupOutbox.Keyed.update {outbox : GroupOutbox} (h : outbox.Keyed)
    (record : GroupOutboxRecord) : (outbox.update record).Keyed := by
  intro key found hfound
  rw [GroupOutbox.get_update] at hfound
  split at hfound
  · next heq =>
    cases hfound
    exact heq
  · exact h key found hfound

/-- A merge keeps each record under its key. -/
theorem GroupOutbox.Keyed.mergeIdempotent {outbox outbox' : GroupOutbox}
    {record : GroupOutboxRecord}
    {inserted : Bool} (hkeyed : outbox.Keyed)
    (h : outbox.mergeIdempotent record = .ok (inserted, outbox')) : outbox'.Keyed := by
  rcases GroupOutbox.mergeIdempotent_cases h with ⟨_, rfl, _⟩ | ⟨_, rfl, _⟩
  · exact hkeyed
  · exact hkeyed.update record

section
variable {σ : Type} {handle : Handler storeInterface σ} {relay : Relay} {view : σ → PocketStore}
  {steady broken : σ → Prop} {s s' : σ} {state state' : GroupServiceState}
  {record : GroupOutboxRecord} {records : List GroupOutboxRecord}

namespace GroupServiceState

/-- The event of the record can be signed, and any projection takes it. -/
def CanGenerate (relay : Relay) (state : GroupServiceState) (record : GroupOutboxRecord) : Prop :=
  ∃ generated, state.builder.signPayloadPocket relay.pocket record.payload = .ok generated ∧
    ∀ projection offset,
      (GroupProjection.applyCanonicalEvent projection generated offset state.limits).Succeeds

/-- Whether a record's event can be generated depends on the setup alone. -/
theorem CanGenerate.congr (h : state.CanGenerate relay record) (hsetup : SameSetup state state') :
    state'.CanGenerate relay record := by
  unfold CanGenerate
  rw [hsetup.builder, hsetup.limits]
  exact h

/-- No record of the outbox waits to be generated. -/
structure AtRest (state : GroupServiceState) : Prop where
  keyed : state.outbox.Keyed
  batch : 0 < state.outboxReplayBatchCap.toNat
  settled : ∀ key record, state.outbox.get key = some record → record.isRetryable = false

/-- What follows the storing of an event can be done: the event can be taken, what it owes can be
planned and merged into the outbox, and the event of every record can be generated. -/
def Completes (relay : Relay) (state : GroupServiceState) (event : PocketEvent)
    (eventClass : GroupEventClass) (offset : StoreOffset) : Prop :=
  ∃ records, projectStored relay.pocket state event eventClass offset = .ok records ∧
    (state.outbox.mergeAll records).Succeeds ∧
    ∀ record ∈ records, record.isRetryable = true → state.CanGenerate relay record

section
variable (hf : relay.AnsweredBy handle view steady broken)
include hf

/-- Checking an event stores nothing. -/
theorem wp_checkEvent_view (hs : steady s) (event : PocketEvent) (eventClass : GroupEventClass)
    (auth : GroupAuthContext) : Wp handle steady (state.checkEvent event eventClass auth) s
      (fun _ s' => view s' = view s) fun _ s' => view s' = view s := by
  have hread : ∀ id, Keeps handle (fun s' => steady s' ∧ view s' = view s)
      (StoreM.eventById GroupError.internal id) fun _ => True := by
    intro id
    refine Keeps.perform (fun s' ⟨hs', hview⟩ => ⟨hf.stays _ s' hs', ?_⟩) fun _ _ _ _ => trivial
    have hsame : view (handle (.eventById id) s').2 = view s' :=
      (hf.leaves (.eventById id) s').elim (fun h => h) fun h => h
    exact hsame.trans hview
  have hkeeps := (@keeps_checkEvent state _ handle _ hread event eventClass auth s ⟨hs, rfl⟩).1
  have hend := (hkeeps _ (Prog.run_mem_states _ _)).2
  refine Wp.of_states (fun t ht => (hkeeps t ht).1) ?_
  cases hresult : (exec handle (state.checkEvent event eventClass auth) s).1 with
  | ok done => exact hend
  | error e => exact hend

/-- Saving rows stores no event. -/
theorem wp_persistGroupProjection_appends (hs : steady s) (projection : GroupProjection)
    (groupId : GroupId) :
    Wp handle steady (persistGroupProjection projection groupId) s
      (fun _ s' => (view s').events = (view s).events) fun _ s' => broken s' := by
  refine Wp.forM (P := fun s' => (view s').events = (view s).events) hs rfl
    fun row _ s' hs' hevents => ?_
  refine (hf.wp_putExtraRecord hs' _ _ _).mono (fun _ _ _ hview => ?_) fun _ _ _ h => h.1
  rw [hview]
  exact hevents

/-- Saving a record stores no event. -/
theorem wp_saveRecord_appends (hs : steady s) (record : GroupOutboxRecord) :
    WpState handle steady (saveRecord record) state s
      (fun _ state' s' => state' = { state with outbox := state.outbox.update record } ∧
        (view s').events = (view s).events) fun _ _ s' => broken s' := by
  refine WpState.modify_seq (WpState.liftProg ((hf.wp_putExtraRecord hs _ _ _).mono
    (fun _ _ _ hview => ⟨rfl, ?_⟩) fun _ _ _ h => h.1))
  rw [hview]
  rfl

/-- The event of a record is stored, unless it is there; only a failed operation prevents it. -/
theorem wp_storeGeneratedEvent_appends (hs : steady s) :
    WpState handle steady (storeGeneratedEvent relay.pocket record) state s
      (fun result state' s' => state'.outbox = state.outbox ∧ SameSetup state state' ∧
        Appends (view s) (view s') result.2.toList)
      fun _ state' s' => state'.outbox = state.outbox ∧ SameSetup state state' ∧
        (state.CanGenerate relay record → broken s') := by
  have hsame : SameSetup state state := .change _ _
  refine WpState.get_seq ?_
  refine WpState.check_seq hs (fun generated hgenerated => ?_) fun error herror =>
    ⟨rfl, hsame, fun ⟨generated, hsign, _⟩ => ?_⟩
  · have hsign := Except.mapError_eq_ok.mp hgenerated
    refine WpState.check_seq hs (fun eventId _ => ?_) fun error herror => ?_
    · -- whether it is there is found out by its id, and then among all events
      refine WpState.liftProg_seq (Y := fun _ s' => broken s')
        (R := fun _ s' => (view s').events = (view s).events)
        (Wp.seq (hf.wp_eventById hs _) (fun found s₁ hs₁ ⟨_, hview⟩ => ?_) fun _ _ _ h => h.1)
        (fun present s₁ hs₁ hevents => ?_) fun _ _ _ h => ⟨rfl, hsame, fun _ => h⟩
      · split
        · exact Wp.pure hs₁ (by rw [hview])
        · refine Wp.seq (hf.wp_scanEventsAfter hs₁ _) (fun stored s₂ hs₂ ⟨_, hview₂⟩ => ?_)
            fun _ _ _ h => h.1
          exact Wp.pure hs₂ (by rw [hview₂, hview])
      · split
        · exact WpState.pure hs₁ ⟨rfl, hsame, .of_events hevents⟩
        · refine WpState.liftProg_seq (hf.wp_storeEvent hs₁ generated)
            (fun offset s₂ hs₂ ⟨_, _, hview⟩ => ?_) fun _ _ _ h => ⟨rfl, hsame, fun _ => h.1⟩
          have happends : Appends (view s) (view s₂) [offset] :=
            ⟨[⟨generated, offset⟩], by rw [hview, hevents], rfl⟩
          refine WpState.check_seq hs₂ (fun result _ => ?_) fun error herror =>
            ⟨rfl, hsame, fun ⟨other, hother, hall⟩ => ?_⟩
          · refine WpState.set_seq (WpState.liftProg_seq
              (wp_persistGroupProjection_appends hf hs₂ _ _)
              (fun _ s₃ hs₃ hevents₃ => ?_) fun _ _ _ h => ⟨rfl, .change _ _, fun _ => h⟩)
            exact WpState.pure hs₃ ⟨rfl, .change _ _, happends.of_eq hevents₃⟩
          · cases hsign.symm.trans hother
            obtain ⟨result, hresult⟩ := hall state.projection offset
            rw [hresult] at herror
            cases herror
    · have hnew : Hex64.new _ generated.id.text = .ok generated.id := Hex64.new_text generated.id
      have hid : generatedEventId generated = .ok generated.id :=
        Except.mapError_eq_ok.mpr hnew
      cases hid.symm.trans herror
  · rw [buildGenerated, hsign] at herror
    cases herror

/-- The event of a record is stored and the record final. -/
theorem wp_materializeRecord_appends (hs : steady s) :
    WpState handle steady (materializeRecord relay.pocket record) state s
      (fun offset state' s' => SameSetup state state' ∧
        Appends (view s) (view s') offset.toList ∧ (state.outbox.Keyed → state'.outbox.Keyed) ∧
        MadeFinal [record] state.outbox state'.outbox)
      fun _ _ s' => state.CanGenerate relay record → broken s' := by
  have hkeyed : ∀ record, state.outbox.Keyed → (state.outbox.update record).Keyed :=
    fun record h => h.update record
  unfold materializeRecord
  split
  · refine WpState.seq (wp_saveRecord_appends hf hs _)
      (fun _ state₁ s₁ hs₁ ⟨hstate, hevents⟩ => ?_) fun _ _ _ _ h _ => h
    subst hstate
    exact WpState.pure hs₁ ⟨.change _ _, .of_events hevents, hkeyed _, .update rfl rfl⟩
  · refine WpState.attempt_seq (wp_storeGeneratedEvent_appends hf hs)
      (fun result state₁ s₁ hs₁ ⟨houtbox, hsetup, happends⟩ => ?_)
      fun error state₁ s₁ hs₁ ⟨_, _, hbroken⟩ => ?_
    · refine WpState.seq (wp_saveRecord_appends hf hs₁ _)
        (fun _ state₂ s₂ hs₂ ⟨hstate, hevents⟩ => ?_) fun _ _ _ _ h _ => h
      subst hstate
      refine WpState.pure hs₂ ⟨hsetup.trans (.change _ _), happends.of_eq hevents, ?_, ?_⟩
      · rw [houtbox]
        exact hkeyed _
      · rw [houtbox]
        exact .update rfl rfl
    · -- that the record is to be tried again may be saved or not
      refine WpState.seq (R := fun _ _ s₂ => state.CanGenerate relay record → broken s₂)
        (Y := fun _ _ s₂ => state.CanGenerate relay record → broken s₂) ?_
        (fun _ _ _ hs₂ h => WpState.throw hs₂ h) fun _ _ _ _ h => h
      by_cases hcan : state.CanGenerate relay record
      · exact (hf.wp_broken hs₁ (hbroken hcan)).mono (fun _ _ _ _ h _ => h) fun _ _ _ _ h _ => h
      · exact (wp_saveRecord_appends hf hs₁ _).mono (fun _ _ _ _ _ h => absurd h hcan)
          fun _ _ _ _ h _ => h

/-- **A replay of a list appends the events that it reports**, in their order, and makes its records
final. By induction on the list. -/
theorem wp_materializeRecords_appends (hs : steady s)
    (hnodup : (records.map GroupOutboxRecord.key).Nodup) :
    WpState handle steady (materializeRecords relay.pocket records) state s
      (fun offsets state' s' => SameSetup state state' ∧ Appends (view s) (view s') offsets ∧
        (state.outbox.Keyed → state'.outbox.Keyed) ∧
        MadeFinal records state.outbox state'.outbox)
      fun _ _ s' => (∀ record ∈ records, state.CanGenerate relay record) → broken s' := by
  induction records generalizing state s with
  | nil => exact WpState.pure hs ⟨.change _ _, .of_events rfl, id, .nil⟩
  | cons record rest ih =>
    obtain ⟨hnot, hnodup⟩ := List.nodup_cons.mp hnodup
    have hne : ∀ r ∈ rest, r.key ≠ record.key :=
      fun r hr heq => hnot (heq ▸ List.mem_map_of_mem hr)
    refine WpState.seq (wp_materializeRecord_appends hf hs)
      (fun offset state₁ s₁ hs₁ ⟨hsetup, happends, hkeyed, hfinal⟩ => ?_)
      fun _ _ _ _ h hcan => h (hcan record (List.mem_cons_self ..))
    refine WpState.seq (ih hs₁ hnodup)
      (fun offsets state₂ s₂ hs₂ ⟨hsetup₂, happends₂, hkeyed₂, hfinal₂⟩ => ?_)
      fun _ _ _ _ h hcan => h fun r hr => (hcan r (List.mem_cons_of_mem _ hr)).congr hsetup
    exact WpState.pure hs₂ ⟨hsetup.trans hsetup₂, happends.trans happends₂,
      fun h => hkeyed₂ (hkeyed h), hfinal.cons hfinal₂ hne⟩

/-- The loop makes every record of its plan final. -/
theorem wp_materializeLoop_appends {keep : GroupOutboxRecord → Bool} (hs : steady s)
    (hkeyed : state.outbox.Keyed) (hcap : 0 < state.outboxReplayBatchCap.toNat) {steps : Nat}
    (hsteps : (state.outbox.replayPlanMatching keep).length < steps) :
    WpState handle steady
      (materializeLoop relay.pocket (fun outbox => outbox.replayPlanMatching keep) steps) state s
      (fun offsets state' s' => SameSetup state state' ∧ Appends (view s) (view s') offsets ∧
        state'.outbox.Keyed ∧
        MadeFinal (state.outbox.replayPlanMatching keep) state.outbox state'.outbox)
      fun _ _ s' => (∀ record ∈ state.outbox.replayPlanMatching keep,
        state.CanGenerate relay record) → broken s' := by
  induction steps generalizing state s with
  | zero => exact absurd hsteps (Nat.not_lt_zero _)
  | succ steps ih =>
    refine WpState.get_seq ?_
    dsimp only
    generalize hplan : state.outbox.replayPlanMatching keep = plan at hsteps ⊢
    generalize hbatch : plan.take state.outboxReplayBatchCap.toNat = batch
    have hsub : ∀ r ∈ batch, r ∈ plan := fun r hr => List.mem_of_mem_take (hbatch ▸ hr)
    split
    · next hempty =>
      -- batches are not empty while there is something to replay
      have hnil : plan = [] := by
        rw [List.isEmpty_iff, ← hbatch, List.take_eq_nil_iff] at hempty
        exact hempty.resolve_left (Nat.ne_of_gt hcap)
      exact WpState.pure hs ⟨.change _ _, .of_events rfl, hkeyed, hnil ▸ .nil⟩
    · next hnonempty =>
      have hnodup : (batch.map GroupOutboxRecord.key).Nodup :=
        (hplan ▸ nodup_plan hkeyed : (plan.map GroupOutboxRecord.key).Nodup).sublist
          (hbatch ▸ (List.take_sublist _ _).map _)
      refine WpState.seq (wp_materializeRecords_appends hf hs hnodup)
        (fun offsets state₁ s₁ hs₁ ⟨hsetup, happends, hkeyed₁, hfinal⟩ => ?_)
        fun _ _ _ _ h hcan => h fun r hr => hcan r (hsub r hr)
      have hkeyed₁ := hkeyed₁ hkeyed
      have hreplan : ∀ r, r ∈ state₁.outbox.replayPlanMatching keep ↔
          r ∈ plan ∧ ∀ other ∈ batch, other.key ≠ r.key :=
        fun r => hplan ▸ mem_replan_iff hfinal.final hfinal.others hkeyed hkeyed₁
      have hshorter : (state₁.outbox.replayPlanMatching keep).length < steps := by
        have hsome : plan ≠ [] := fun hnil => hnonempty (by rw [← hbatch, hnil, List.take_nil]; rfl)
        have hlt := length_replan_lt hkeyed₁ (hbatch ▸ hreplan) hcap hsome
        omega
      refine WpState.seq (ih hs₁ hkeyed₁ (by rw [hsetup.outboxReplayBatchCap]; exact hcap) hshorter)
        (fun more state₂ s₂ hs₂ ⟨hsetup₂, happends₂, hkeyed₂, hfinal₂⟩ => ?_)
        fun _ _ _ _ h hcan => h fun r hr => (hcan r ((hreplan r).mp hr).1).congr hsetup
      exact WpState.pure hs₂ ⟨hsetup.trans hsetup₂, happends.trans happends₂, hkeyed₂,
        hfinal.of_batch hfinal₂ hsub hreplan⟩

/-- **A replay that succeeds has made every record of its plan final and reports what it
stored.** -/
theorem wp_materializeWith_appends {keep : GroupOutboxRecord → Bool} (hs : steady s)
    (hkeyed : state.outbox.Keyed) (hcap : 0 < state.outboxReplayBatchCap.toNat) :
    WpState handle steady
      (materializeWith relay.pocket fun outbox => outbox.replayPlanMatching keep) state s
      (fun offsets state' s' => SameSetup state state' ∧ Appends (view s) (view s') offsets ∧
        state'.outbox.Keyed ∧
        MadeFinal (state.outbox.replayPlanMatching keep) state.outbox state'.outbox)
      fun _ _ s' => (∀ record ∈ state.outbox.replayPlanMatching keep,
        state.CanGenerate relay record) → broken s' :=
  WpState.get_seq (wp_materializeLoop_appends hf hs hkeyed hcap (Nat.lt_succ_self _))

/-- Merging records stores no event, and what waits then waited before or is one of them. -/
theorem wp_mergeRecords_appends (hs : steady s) :
    WpState handle steady (mergeRecords records) state s
      (fun _ state' s' => SameSetup state state' ∧ (view s').events = (view s).events ∧
        (state.outbox.Keyed → state'.outbox.Keyed) ∧
        ∀ key record, state'.outbox.get key = some record →
          state.outbox.get key = some record ∨ record ∈ records)
      fun _ _ s' => (state.outbox.mergeAll records).Succeeds → broken s' := by
  unfold mergeRecords
  induction records generalizing state s with
  | nil => exact WpState.pure hs ⟨.change _ _, rfl, id, fun _ _ h => .inl h⟩
  | cons record rest ih =>
    rw [List.forM_cons]
    refine WpState.seq
      (R := fun _ state₁ s₁ => SameSetup state state₁ ∧ (view s₁).events = (view s).events ∧
        (state.outbox.Keyed → state₁.outbox.Keyed) ∧ ∃ inserted,
          state.outbox.mergeIdempotent record = .ok (inserted, state₁.outbox))
      (Y := fun _ _ s₁ => (state.outbox.mergeIdempotent record).Succeeds → broken s₁) ?_
      (fun _ state₁ s₁ hs₁ ⟨hsetup, hevents, hkeyed, inserted, hmerge⟩ => ?_)
      fun _ _ _ _ h hmerged => h ?_
    · refine WpState.get_seq
        (WpState.check_seq hs (fun merged hmerged => ?_) fun error herror => ?_)
      · have hmerge := Except.mapError_eq_ok.mp hmerged
        have hkeyed : state.outbox.Keyed → merged.2.Keyed := fun h => h.mergeIdempotent hmerge
        refine WpState.set_seq ?_
        split
        · refine WpState.liftProg ((hf.wp_putExtraRecord hs _ _ _).mono (fun _ _ _ hview => ?_)
            fun _ _ _ h _ => h.1)
          exact ⟨.change _ _, by rw [hview]; rfl, hkeyed, merged.1, hmerge⟩
        · exact WpState.pure hs ⟨.change _ _, rfl, hkeyed, merged.1, hmerge⟩
      · intro ⟨merged, hmerged⟩
        rw [hmerged] at herror
        cases herror
    · refine (ih hs₁).mono (fun _ state₂ s₂ _ ⟨hsetup₂, hevents₂, hkeyed₂, honly⟩ => ?_)
        fun _ _ _ _ h hmerged => h ?_
      · refine ⟨hsetup.trans hsetup₂, hevents₂.trans hevents, fun h => hkeyed₂ (hkeyed h),
          fun key found hfound => ?_⟩
        rcases honly key found hfound with hbefore | hrest
        · rcases GroupOutbox.get_of_mergeIdempotent hmerge hbefore with hget | rfl
          · exact .inl hget
          · exact .inr (List.mem_cons_self ..)
        · exact .inr (List.mem_cons_of_mem _ hrest)
      · rw [GroupOutbox.mergeAll, List.foldlM_cons, hmerge] at hmerged
        exact hmerged
    · rw [GroupOutbox.mergeAll, List.foldlM_cons] at hmerged
      obtain ⟨outbox, hfirst, _⟩ := Except.succeeds_bind.mp hmerged
      obtain ⟨merged, hmerge, _⟩ := Except.map_eq_ok.mp hfirst
      exact ⟨merged, hmerge⟩

/-- The steps after an event is stored store what it owes and report it. -/
theorem wp_afterSourceEventStored_appends {event : PocketEvent} {eventClass : GroupEventClass}
    {offset : StoreOffset} (hs : steady s) (hrest : state.AtRest)
    (hgroup : eventClass.groupId.isSome = true) :
    WpState handle steady (afterSourceEventStored relay.pocket event eventClass offset) state s
      (fun offsets state' s' => Appends (view s) (view s') offsets ∧ state'.AtRest)
      fun _ _ s' => state.Completes relay event eventClass offset → broken s' := by
  obtain ⟨groupId, hgroup⟩ := Option.isSome_iff_exists.mp hgroup
  refine WpState.get_seq ?_
  refine WpState.check_seq hs (fun before hbefore => ?_) fun error herror hcompletes => ?_
  · refine WpState.check_seq hs (fun result hresult => ?_) fun error herror hcompletes => ?_
    · have hbefore := Except.mapError_eq_ok.mp hbefore
      have hresult := Except.mapError_eq_ok.mp hresult
      obtain ⟨outcome, projection⟩ := result
      have hpersist : Wp handle steady (persistClassProjection projection eventClass) s
          (fun _ s' => (view s').events = (view s).events) fun _ s' => broken s' := by
        unfold persistClassProjection
        split
        · exact wp_persistGroupProjection_appends hf hs _ _
        · exact Wp.pure hs rfl
      refine WpState.set_seq (WpState.liftProg_seq hpersist (fun _ s₁ hs₁ hevents => ?_)
        fun _ _ _ h _ => h)
      refine WpState.get_seq (WpState.check_seq hs₁ (fun records hrecords => ?_)
        fun error herror hcompletes => ?_)
      · have hplan := Except.mapError_eq_ok.mp hrecords
        have hprojected : projectStored relay.pocket state event eventClass offset =
            .ok records := by
          rw [projectStored, hbefore, Except.ok_bind, hresult]
          exact hplan
        refine WpState.seq (wp_mergeRecords_appends hf hs₁)
          (fun _ state₂ s₂ hs₂ ⟨hsetup, hevents₂, hkeyed, honly⟩ => ?_)
          fun _ _ _ _ h hcompletes => ?_
        · have hkeyed := hkeyed hrest.keyed
          have hmaterialize : materializeClass relay.pocket eventClass =
              materializeWith relay.pocket fun outbox =>
                outbox.replayPlanMatching fun record => record.key.groupId == groupId := by
            cases eventClass with
            | nonGroup => cases hgroup
            | _ => cases hgroup; rfl
          -- what waits is of the records that were merged
          have hwaits : ∀ key record, state₂.outbox.get key = some record →
              record.isRetryable = true → record ∈ records := by
            intro key record hget hretry
            refine (honly key record hget).resolve_left fun hbefore => ?_
            exact Bool.false_ne_true ((hrest.settled key record hbefore).symm.trans hretry)
          rw [hmaterialize]
          refine (wp_materializeWith_appends hf hs₂ hkeyed
            (by rw [hsetup.outboxReplayBatchCap]; exact hrest.batch)).mono
            (fun offsets state₃ s₃ _ ⟨hsetup₃, happends, hkeyed₃, hfinal⟩ => ⟨?_, hkeyed₃, ?_, ?_⟩)
            fun _ _ _ _ h hcompletes => h fun record hrecord => ?_
          · have hbefore : Appends (view s) (view s₂) [] := .of_events (hevents₂.trans hevents)
            exact hbefore.trans happends
          · rw [hsetup₃.outboxReplayBatchCap, hsetup.outboxReplayBatchCap]
            exact hrest.batch
          · intro key record hget
            refine hfinal.settled hkeyed hget fun hget hretry => ?_
            have howed := (owed_of_plan hplan (hwaits key record hget hretry)).key.2
            cases hgroup.symm.trans howed
            exact beq_self_eq_true _
          · obtain ⟨other, hother, _, hcan⟩ := hcompletes
            cases hprojected.symm.trans hother
            obtain ⟨⟨key, hget⟩, hretry, _⟩ := GroupOutbox.mem_replayPlanMatching.mp hrecord
            exact (hcan record (hwaits key record hget hretry) hretry).congr
              ⟨hsetup.builder, hsetup.authority, hsetup.policy, hsetup.limits,
                hsetup.memberSnapshotCap, hsetup.outboxReplayBatchCap⟩
        · obtain ⟨other, hother, hmerged, _⟩ := hcompletes
          cases hprojected.symm.trans hother
          exact h hmerged
      · obtain ⟨records, hprojected, _⟩ := hcompletes
        rw [projectStored, hbefore, Except.ok_bind, hresult, Except.ok_bind] at hprojected
        dsimp only at hprojected
        rw [hprojected] at herror
        cases herror
    · obtain ⟨records, hprojected, _⟩ := hcompletes
      rw [projectStored, Except.mapError_eq_ok.mp hbefore, Except.ok_bind] at hprojected
      obtain ⟨result, hresult, _⟩ := Except.bind_eq_ok.mp hprojected
      rw [hresult] at herror
      cases herror
  · obtain ⟨records, hprojected, _⟩ := hcompletes
    obtain ⟨before, hbefore, _⟩ := Except.bind_eq_ok.mp hprojected
    rw [hbefore] at herror
    cases herror

end

end GroupServiceState

end

end Tangle
