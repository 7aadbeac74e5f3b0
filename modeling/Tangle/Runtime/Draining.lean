import Tangle.Runtime.Offsets
import Tangle.Runtime.Runs

/-!
# Draining the outbox

The source's loop over the outbox has no counter: it plans again from the whole outbox before each
batch. A batch that succeeds makes its records final, so the plan that follows is the rest of the
plan before it (`replan_eq_drop`), and the loop ends however the store behaves
(`materializeOutbox_drains`). A loop that fails stops inside one batch: the records before one
record of the plan are final, that record has been tried, and the others are as they were.

The record at which the loop stops need not be one to try again. Once its event is stored it is
final in memory before its row is written, and a row that cannot be written fails the batch.
-/

namespace Tangle

open GroupServiceState

/-! ## What becomes of a record -/

namespace GroupOutboxRecord

/-- A record whose event was stored, or that was skipped. -/
inductive BecomesFinal (record : GroupOutboxRecord) : GroupOutboxRecord → Prop where
  | stored (id : EventId) : BecomesFinal record (record.markStored id)
  | skipped (reason : String) : BecomesFinal record (record.markSkipped reason)

/-- A record whose event could not be stored: it is to be tried again, and one more attempt is
counted, up to the largest number of 32 bits. -/
structure BecomesFailed (record failed : GroupOutboxRecord) : Prop where
  key : failed.key = record.key
  payload : failed.payload = record.payload
  status : failed.status = .failed true
  attempts : failed.attempts = min (record.attempts + 1) (2 ^ 32 - 1)

variable {record final : GroupOutboxRecord}

/-- A record marked failed is one that has failed. -/
theorem becomesFailed_markFailed (error : String) :
    record.BecomesFailed (record.markFailed true error) :=
  ⟨rfl, rfl, rfl, rfl⟩

/-- A record that becomes final keeps its key. -/
theorem BecomesFinal.key (h : record.BecomesFinal final) : final.key = record.key := by
  cases h with
  | stored id => simp
  | skipped reason => simp

/-- A final record is not tried again. -/
theorem BecomesFinal.isRetryable (h : record.BecomesFinal final) : final.isRetryable = false := by
  cases h with
  | stored id => simp
  | skipped reason => simp

end GroupOutboxRecord

/-- The store refused the row of the record with this error. -/
def RowRefused {σ : Type} (handle : Handler storeInterface σ) (record : GroupOutboxRecord)
    (error : BaseRelayError) : Prop :=
  ∃ (s s' : σ) (message : String), error = .error message ∧
    handle (.putExtraRecord .outbox record.key.storageKey record.toJsonBytes) s =
      (.error message, s')

section
variable {σ : Type} {handle : Handler storeInterface σ} {error : BaseRelayError}
  {record : GroupOutboxRecord} {records batch plan : List GroupOutboxRecord}
  {outbox outbox₁ outbox' : GroupOutbox} {keep : GroupOutboxRecord → Bool}

/-- The records have become final, and the others are as they were. -/
structure RecordsFinal (records : List GroupOutboxRecord) (outbox outbox' : GroupOutbox) :
    Prop where
  final : ∀ record ∈ records, ∃ final, record.BecomesFinal final ∧
    outbox'.get record.key = some final
  others : ∀ key, (∀ record ∈ records, record.key ≠ key) → outbox'.get key = outbox.get key

/-- What becomes of a record at which a batch stops: it has failed, or it is final and its row was
refused. -/
def Stops (handle : Handler storeInterface σ) (error : BaseRelayError)
    (record tried : GroupOutboxRecord) : Prop :=
  record.BecomesFailed tried ∨ record.BecomesFinal tried ∧ RowRefused handle tried error

/-- The records before one of them have become final, the batch stopped at that one, and the others
are as they were. -/
def StoppedIn (handle : Handler storeInterface σ) (error : BaseRelayError)
    (records : List GroupOutboxRecord) (outbox outbox' : GroupOutbox) : Prop :=
  ∃ before record after outbox₁ tried, records = before ++ record :: after ∧
    RecordsFinal before outbox outbox₁ ∧ Stops handle error record tried ∧
    outbox' = outbox₁.update tried

/-- A record that stops the replay keeps its key. -/
theorem Stops.key {tried : GroupOutboxRecord} (h : Stops handle error record tried) :
    tried.key = record.key := by
  rcases h with hfailed | ⟨hfinal, _⟩
  · exact hfailed.key
  · exact hfinal.key

namespace RecordsFinal

/-- No record leaves the outbox as it was. -/
theorem nil : RecordsFinal [] outbox outbox where
  final _ h := nomatch h
  others _ _ := rfl

/-- One record that becomes final is put in the place of the one before. -/
theorem update {final : GroupOutboxRecord} (h : record.BecomesFinal final) :
    RecordsFinal [record] outbox (outbox.update final) where
  final r hr := by
    cases List.mem_singleton.mp hr
    refine ⟨final, h, ?_⟩
    simp [GroupOutbox.get_update, h.key]
  others key hne := by
    have hkey : final.key ≠ key := h.key ▸ hne record (List.mem_cons_self ..)
    simp [GroupOutbox.get_update, hkey]

/-- Records, and then others, which have none of their keys. -/
theorem append (h : RecordsFinal batch outbox outbox₁) (h' : RecordsFinal records outbox₁ outbox')
    (hapart : ∀ r ∈ batch, ∀ r' ∈ records, r'.key ≠ r.key) :
    RecordsFinal (batch ++ records) outbox outbox' where
  final r hr := by
    rcases List.mem_append.mp hr with hr | hr
    · rw [h'.others r.key (hapart r hr)]
      exact h.final r hr
    · exact h'.final r hr
  others key hne := by
    have hbatch := h.others key fun r hr => hne r (List.mem_append_left _ hr)
    have hrest := h'.others key fun r hr => hne r (List.mem_append_right _ hr)
    rw [hrest, hbatch]

/-- The records that become final keep the outbox keyed. -/
theorem keyed (h : RecordsFinal records outbox outbox') (hkeyed : outbox.Keyed) :
    outbox'.Keyed := by
  intro key found hget
  by_cases hin : ∃ r ∈ records, r.key = key
  · obtain ⟨r, hr, hkey⟩ := hin
    obtain ⟨final, hbecomes, hfinal⟩ := h.final r hr
    rw [hkey, hget] at hfinal
    cases hfinal
    rw [hbecomes.key, hkey]
  · have hsame := h.others key fun r hr hkey => hin ⟨r, hr, hkey⟩
    exact hkeyed key found (hsame ▸ hget)

end RecordsFinal

namespace StoppedIn

/-- A single record that stops the replay is tried and left. -/
theorem single {tried : GroupOutboxRecord} (h : Stops handle error record tried) :
    StoppedIn handle error [record] outbox (outbox.update tried) :=
  ⟨[], record, [], outbox, tried, rfl, .nil, h, rfl⟩

/-- Records that have become final, and then others, where the loop stopped. -/
theorem append (h : RecordsFinal batch outbox outbox₁)
    (h' : StoppedIn handle error records outbox₁ outbox')
    (hapart : ∀ r ∈ batch, ∀ r' ∈ records, r'.key ≠ r.key) :
    StoppedIn handle error (batch ++ records) outbox outbox' := by
  obtain ⟨before, record, after, outbox₂, tried, rfl, hbefore, hstops, hupdate⟩ := h'
  have hsettled := h.append hbefore fun r hr r' hr' =>
    hapart r hr r' (List.mem_append_left _ hr')
  refine ⟨batch ++ before, record, after, outbox₂, tried, ?_, hsettled, hstops, hupdate⟩
  simp

/-- A loop that stopped among the first records of a list stopped in the list. -/
theorem extend (h : StoppedIn handle error batch outbox outbox') :
    StoppedIn handle error (batch ++ records) outbox outbox' := by
  obtain ⟨before, record, after, outbox₂, tried, rfl, hrest⟩ := h
  refine ⟨before, record, after ++ records, outbox₂, tried, ?_, hrest⟩
  simp

/-- What has none of the keys is as it was. -/
theorem others (h : StoppedIn handle error records outbox outbox') {key : GroupOutboxKey}
    (hne : ∀ record ∈ records, record.key ≠ key) : outbox'.get key = outbox.get key := by
  obtain ⟨before, record, after, outbox₂, tried, rfl, hbefore, hstops, rfl⟩ := h
  have hrecord : tried.key ≠ key := by
    rw [hstops.key]
    exact hne record (by simp)
  rw [GroupOutbox.get_update, if_neg hrecord]
  exact hbefore.others key fun r hr => hne r (List.mem_append_left _ hr)

end StoppedIn

/-! ## Planning again -/

/-- The place of a record in a replay determines its key. -/
theorem GroupOutboxRecord.key_of_replayKey {record record' : GroupOutboxRecord}
    (h : record.replayKey = record'.replayKey) : record.key = record'.key := by
  obtain ⟨⟨sourceEventId, effect, groupId, targetPubkey⟩, _, _, _, _⟩ := record
  obtain ⟨⟨sourceEventId', effect', groupId', targetPubkey'⟩, _, _, _, _⟩ := record'
  simp only [GroupOutboxRecord.replayKey, EmbeddingLike.apply_eq_iff_eq, Prod.mk.injEq] at h
  obtain ⟨rfl, _, rfl, rfl, rfl⟩ := h
  rfl

/-- A plan is in the strict order of the records' places. -/
theorem pairwise_plan (h : outbox.Keyed) :
    (outbox.replayPlanMatching keep).Pairwise fun a b => a.replayKey < b.replayKey := by
  have hsorted : (outbox.replayPlanMatching keep).Pairwise fun a b =>
    a.replayKey ≤ b.replayKey := by
    unfold GroupOutbox.replayPlanMatching
    exact List.pairwise_insertionSort _ _
  have hnodup : ((outbox.replayPlanMatching keep).map GroupOutboxRecord.key).Nodup := nodup_plan h
  refine (hsorted.and (List.pairwise_map.mp hnodup)).imp fun {a b} ⟨hle, hne⟩ => ?_
  exact lt_of_le_of_ne hle fun heq => hne (GroupOutboxRecord.key_of_replayKey heq)

/-- After a batch has become final, what is to be replayed is the rest of the plan. -/
theorem replan_eq_drop {cap : Nat} (hkeyed : outbox.Keyed)
    (h : RecordsFinal ((outbox.replayPlanMatching keep).take cap) outbox outbox') :
    outbox'.replayPlanMatching keep = (outbox.replayPlanMatching keep).drop cap := by
  generalize hplan : outbox.replayPlanMatching keep = plan at h ⊢
  have hkeyed' := h.keyed hkeyed
  have hnodup : (plan.map GroupOutboxRecord.key).Nodup := hplan ▸ nodup_plan hkeyed
  have hfinal : ∀ record ∈ plan.take cap, ∃ record', outbox'.get record.key = some record' ∧
      record'.isRetryable = false := by
    intro record hrecord
    obtain ⟨final, hbecomes, hget⟩ := h.final record hrecord
    exact ⟨final, hget, hbecomes.isRetryable⟩
  have hmem : ∀ record, record ∈ outbox'.replayPlanMatching keep ↔ record ∈ plan.drop cap := by
    intro record
    rw [mem_replan_iff hfinal h.others hkeyed hkeyed', hplan]
    rw [← List.take_append_drop cap plan, List.map_append, List.nodup_append] at hnodup
    obtain ⟨_, _, hapart⟩ := hnodup
    refine ⟨fun ⟨hrecord, hne⟩ => ?_, fun hrecord => ⟨List.mem_of_mem_drop hrecord, fun r hr => ?_⟩⟩
    · rw [← List.take_append_drop cap plan, List.mem_append] at hrecord
      exact hrecord.resolve_left fun hr => hne record hr rfl
    · exact hapart _ (List.mem_map_of_mem hr) _ (List.mem_map_of_mem hrecord)
  have hsorted' : (outbox'.replayPlanMatching keep).Pairwise fun a b => a.replayKey < b.replayKey :=
    pairwise_plan hkeyed'
  have hsorted : (plan.drop cap).Pairwise fun a b => a.replayKey < b.replayKey :=
    (hplan ▸ pairwise_plan hkeyed).sublist (List.drop_sublist _ _)
  have hperm : (outbox'.replayPlanMatching keep).Perm (plan.drop cap) := by
    rw [List.perm_ext_iff_of_nodup (nodup_plan hkeyed').of_map]
    · exact hmem
    · exact (hnodup.sublist ((List.drop_sublist _ _).map _)).of_map
  exact hperm.eq_of_pairwise (fun a b _ _ hab hba => absurd hab (lt_asymm hba)) hsorted' hsorted

end

/-! ## The loop -/

section
variable {σ : Type} {handle : Handler storeInterface σ} {pocket : PocketTypes}
  {keep : GroupOutboxRecord → Bool} {state : GroupServiceState} {s : σ}

/-- The batch that is taken next. -/
def GroupServiceState.nextBatch (keep : GroupOutboxRecord → Bool) (state : GroupServiceState) :
    List GroupOutboxRecord :=
  (state.outbox.replayPlanMatching keep).take state.outboxReplayBatchCap.toNat

/-- The loop of the source, which has no bound, ends with this result, the service's state and the
store's. -/
inductive LoopEnds (handle : Handler storeInterface σ) (pocket : PocketTypes)
    (keep : GroupOutboxRecord → Bool) : GroupServiceState → σ →
      Except BaseRelayError (List StoreOffset) × GroupServiceState × σ → Prop where
  | empty {state : GroupServiceState} {s : σ} (h : state.nextBatch keep = []) :
    LoopEnds handle pocket keep state s (.ok [], state, s)
  | failed {state state' : GroupServiceState} {s s' : σ} {error : BaseRelayError}
    (h : state.nextBatch keep ≠ [])
    (hbatch : execState handle (materializeRecords pocket (state.nextBatch keep)) state s =
      (.error error, state', s')) :
    LoopEnds handle pocket keep state s (.error error, state', s')
  | batch {state state₁ state' : GroupServiceState} {s s₁ s' : σ} {offsets : List StoreOffset}
    {result : Except BaseRelayError (List StoreOffset)} (h : state.nextBatch keep ≠ [])
    (hbatch : execState handle (materializeRecords pocket (state.nextBatch keep)) state s =
      (.ok offsets, state₁, s₁))
    (hrest : LoopEnds handle pocket keep state₁ s₁ (result, state', s')) :
    LoopEnds handle pocket keep state s (result.map (offsets ++ ·), state', s')

/-- What a drain has done with the included records of an outbox. -/
structure Drained (handle : Handler storeInterface σ) (keep : GroupOutboxRecord → Bool)
    (outbox outbox' : GroupOutbox) (result : Except BaseRelayError (List StoreOffset)) : Prop where
  ok : ∀ offsets, result = .ok offsets →
    RecordsFinal (outbox.replayPlanMatching keep) outbox outbox' ∧
    ∀ key record, outbox'.get key = some record → keep record = true → record.isRetryable = false
  error : ∀ error, result = .error error →
    StoppedIn handle error (outbox.replayPlanMatching keep) outbox outbox'
  others : ∀ key record, outbox.get key = some record →
    keep record = false ∨ record.isRetryable = false → outbox'.get key = some record

namespace GroupServiceState

/-- Storing a generated event leaves the outbox alone. -/
theorem keeps_storeGeneratedEvent {record : GroupOutboxRecord} {outbox : GroupOutbox}
    {cap : UInt32} : KeepsState handle (fun _ => True)
      (fun state => state.outbox = outbox ∧ state.outboxReplayBatchCap = cap)
      (storeGeneratedEvent pocket record) fun _ => True := by
  refine KeepsState.get.bind fun state hstate => ?_
  refine KeepsState.bind (KeepsState.liftExcept fun _ _ => trivial) fun generated _ => ?_
  refine KeepsState.bind (KeepsState.liftExcept fun _ _ => trivial) fun eventId _ => ?_
  refine (KeepsState.liftProg Keeps.any).bind fun present _ => ?_
  split
  · exact KeepsState.pure trivial
  · refine (KeepsState.liftProg Keeps.any).bind fun offset _ => ?_
    refine KeepsState.bind (KeepsState.liftExcept fun _ _ => trivial) fun result _ => ?_
    obtain ⟨_, projection⟩ := result
    dsimp only
    refine KeepsState.bind (KeepsState.set hstate) fun _ _ => ?_
    exact (KeepsState.liftProg Keeps.any).bind fun _ _ => KeepsState.pure trivial

/-- A record is replaced in memory, also when its row cannot be written. -/
theorem wp_saveRecord_any {record : GroupOutboxRecord} :
    WpState handle (fun _ => True) (saveRecord record) state s
      (fun _ state' _ => state' = { state with outbox := state.outbox.update record })
      fun error state' _ => state' = { state with outbox := state.outbox.update record } ∧
        RowRefused handle record error := by
  refine WpState.modify_seq (WpState.liftProg (Wp.perform trivial trivial (fun _ _ => rfl) ?_))
  intro error herror
  rcases hput : handle (.putExtraRecord .outbox record.key.storageKey record.toJsonBytes) s with
    ⟨message | _, s'⟩
  · rw [hput] at herror
    cases herror
    exact ⟨rfl, s, s', message, rfl, hput⟩
  · rw [hput] at herror
    cases herror

/-- A record of a batch becomes final, or the batch stops at it. -/
theorem wp_materializeRecord_any {record : GroupOutboxRecord} :
    WpState handle (fun _ => True) (materializeRecord pocket record) state s
      (fun _ state' _ => RecordsFinal [record] state.outbox state'.outbox ∧
        state'.outboxReplayBatchCap = state.outboxReplayBatchCap)
      fun error state' _ => StoppedIn handle error [record] state.outbox state'.outbox := by
  unfold materializeRecord
  split
  · have hfinal : record.BecomesFinal
        (record.markSkipped "generated group effect is not supported") := .skipped _
    refine wp_saveRecord_any.seq (fun _ state₁ s₁ hs hstate => ?_)
      fun error state₁ s₁ hs hstate => ?_
    · subst hstate
      exact WpState.pure hs ⟨.update hfinal, rfl⟩
    · obtain ⟨rfl, hrefused⟩ := hstate
      exact .single (.inr ⟨hfinal, hrefused⟩)
  · have hstore : WpState handle (fun _ => True) (storeGeneratedEvent pocket record) state s
        (fun _ state' _ => (state'.outbox = state.outbox ∧
          state'.outboxReplayBatchCap = state.outboxReplayBatchCap) ∧ True)
        fun _ state' _ => state'.outbox = state.outbox ∧
          state'.outboxReplayBatchCap = state.outboxReplayBatchCap :=
      WpState.of_keeps keeps_storeGeneratedEvent ⟨rfl, rfl⟩ trivial
    refine hstore.attempt_seq (fun result state₁ s₁ _ ⟨⟨houtbox, hcap⟩, _⟩ => ?_)
      fun error state₁ s₁ _ ⟨houtbox, hcap⟩ => ?_
    · have hfinal : record.BecomesFinal (record.markStored result.1) := .stored _
      refine wp_saveRecord_any.seq (fun _ state₂ s₂ hs hstate => ?_)
        fun error state₂ s₂ hs hstate => ?_
      · subst hstate
        exact WpState.pure hs ⟨houtbox ▸ .update hfinal, hcap⟩
      · obtain ⟨rfl, hrefused⟩ := hstate
        exact houtbox ▸ .single (.inr ⟨hfinal, hrefused⟩)
    · have hfailed := record.becomesFailed_markFailed error.prefixedMessage
      refine wp_saveRecord_any.seq (fun _ state₂ s₂ hs hstate => ?_) fun _ state₂ s₂ hs hstate => ?_
      · subst hstate
        exact WpState.throw hs (houtbox ▸ .single (.inl hfailed))
      · obtain ⟨rfl, _⟩ := hstate
        exact houtbox ▸ .single (.inl hfailed)

/-- **A replay of a list makes its records final, or stops at one that failed** with those before it
final. By induction on the list. -/
theorem wp_materializeRecords_any {records : List GroupOutboxRecord}
    (hnodup : (records.map GroupOutboxRecord.key).Nodup) :
    WpState handle (fun _ => True) (materializeRecords pocket records) state s
      (fun _ state' _ => RecordsFinal records state.outbox state'.outbox ∧
        state'.outboxReplayBatchCap = state.outboxReplayBatchCap)
      fun error state' _ => StoppedIn handle error records state.outbox state'.outbox := by
  induction records generalizing state s with
  | nil => exact WpState.pure trivial ⟨.nil, rfl⟩
  | cons record rest ih =>
    obtain ⟨hnot, hnodup⟩ := List.nodup_cons.mp hnodup
    have hapart : ∀ r ∈ [record], ∀ r' ∈ rest, r'.key ≠ r.key := by
      intro r hr r' hr' heq
      cases List.mem_singleton.mp hr
      exact hnot (heq ▸ List.mem_map_of_mem hr')
    refine wp_materializeRecord_any.seq (fun offset state₁ s₁ _ ⟨hsettled, hcap⟩ => ?_)
      fun error state₁ s₁ _ hstopped => ?_
    · refine (ih hnodup).seq (fun offsets state₂ s₂ hs ⟨hsettled₂, hcap₂⟩ => ?_)
        fun error state₂ s₂ _ hstopped => ?_
      · exact WpState.pure hs ⟨hsettled.append hsettled₂ hapart, hcap₂.trans hcap⟩
      · exact .append hsettled hstopped hapart
    · exact hstopped.extend

/-- One turn of the loop. -/
theorem materializeLoop_succ (steps : Nat) :
    execState handle (materializeLoop pocket (fun outbox => outbox.replayPlanMatching keep)
        (steps + 1)) state s =
      execState handle (if (state.nextBatch keep).isEmpty then pure [] else do
        let offsets ← materializeRecords pocket (state.nextBatch keep)
        let more ← materializeLoop pocket (fun outbox => outbox.replayPlanMatching keep) steps
        pure (offsets ++ more)) state s := rfl

/-- The loop ends as that of the source does, by the length of its plan, which each batch that
succeeds makes shorter. -/
theorem materializeLoop_ends {steps : Nat} {result : Except BaseRelayError (List StoreOffset)}
    {state' : GroupServiceState} {s' : σ} (hkeyed : state.outbox.Keyed)
    (hcap : 0 < state.outboxReplayBatchCap.toNat)
    (hsteps : (state.outbox.replayPlanMatching keep).length < steps)
    (hrun : execState handle
      (materializeLoop pocket (fun outbox => outbox.replayPlanMatching keep) steps) state s =
        (result, state', s')) :
    LoopEnds handle pocket keep state s (result, state', s') ∧
      Ends
        (fun _ _ => RecordsFinal (state.outbox.replayPlanMatching keep) state.outbox state'.outbox)
        (fun error _ => StoppedIn handle error (state.outbox.replayPlanMatching keep) state.outbox
          state'.outbox)
        result s' := by
  induction steps generalizing state s result state' s' with
  | zero => omega
  | succ steps ih =>
    rw [materializeLoop_succ] at hrun
    have hplan : state.nextBatch keep ++
        (state.outbox.replayPlanMatching keep).drop state.outboxReplayBatchCap.toNat =
          state.outbox.replayPlanMatching keep := List.take_append_drop _ _
    have hkeys : ((state.outbox.replayPlanMatching keep).map GroupOutboxRecord.key).Nodup :=
      nodup_plan hkeyed
    rw [← hplan, List.map_append, List.nodup_append] at hkeys
    obtain ⟨hnodup, _, hapart⟩ := hkeys
    split at hrun
    · next hempty =>
      have hempty := List.isEmpty_iff.mp hempty
      have hnil : state.outbox.replayPlanMatching keep = [] := by
        rw [nextBatch, List.take_eq_nil_iff] at hempty
        exact hempty.resolve_left (by omega)
      cases hrun
      exact ⟨.empty hempty, hnil ▸ .nil⟩
    · next hnonempty =>
      have hsome : state.nextBatch keep ≠ [] := fun hnil => hnonempty (List.isEmpty_iff.mpr hnil)
      rcases hbatch : execState handle
        (materializeRecords pocket (state.nextBatch keep)) state s with
        ⟨error | offsets, state₁, s₁⟩
      · rw [execState_bind_error hbatch] at hrun
        cases hrun
        have hstopped := (wp_materializeRecords_any hnodup).exec hbatch
        refine ⟨.failed hsome hbatch, ?_⟩
        exact hplan ▸ StoppedIn.extend hstopped
      · rw [execState_bind_ok hbatch] at hrun
        obtain ⟨hsettled, hcap₁⟩ := (wp_materializeRecords_any hnodup).exec hbatch
        have hreplan := replan_eq_drop hkeyed hsettled
        have hshorter : (state₁.outbox.replayPlanMatching keep).length < steps := by
          have hpos : 0 < (state.outbox.replayPlanMatching keep).length := by
            refine List.length_pos_iff.mpr fun hnil => hsome ?_
            rw [nextBatch, hnil, List.take_nil]
          rw [hreplan, List.length_drop]
          omega
        have happart : ∀ r ∈ state.nextBatch keep, ∀ r' ∈ state₁.outbox.replayPlanMatching keep,
            r'.key ≠ r.key := by
          intro r hr r' hr' heq
          rw [hreplan] at hr'
          exact hapart _ (List.mem_map_of_mem hr) _ (List.mem_map_of_mem hr') heq.symm
        rcases hrest : execState handle (materializeLoop pocket
            (fun outbox => outbox.replayPlanMatching keep) steps) state₁ s₁ with ⟨rest, state₂, s₂⟩
        obtain ⟨hloop, hend⟩ := ih (hsettled.keyed hkeyed) (hcap₁ ▸ hcap) hshorter hrest
        cases rest with
        | error error =>
          rw [execState_bind_error hrest] at hrun
          cases hrun
          refine ⟨.batch hsome hbatch hloop, ?_⟩
          have hstopped := StoppedIn.append hsettled hend happart
          rwa [hreplan, hplan] at hstopped
        | ok more =>
          rw [execState_bind_ok hrest] at hrun
          cases hrun
          refine ⟨.batch hsome hbatch hloop, ?_⟩
          have hsettled := hsettled.append hend happart
          rwa [hreplan, hplan] at hsettled

/-- What the loop has done. -/
theorem drained_of_ends {outbox outbox' : GroupOutbox}
    {result : Except BaseRelayError (List StoreOffset)} (hkeyed : outbox.Keyed)
    (h : Ends (fun _ _ => RecordsFinal (outbox.replayPlanMatching keep) outbox outbox')
      (fun error _ => StoppedIn handle error (outbox.replayPlanMatching keep) outbox outbox')
      result s) :
    Drained handle keep outbox outbox' result where
  ok offsets hok := by
    subst hok
    have hsettled : RecordsFinal (outbox.replayPlanMatching keep) outbox outbox' := h
    refine ⟨hsettled, fun key record hget hkeep => ?_⟩
    have hfinal : MadeFinal (outbox.replayPlanMatching keep) outbox outbox' := by
      refine ⟨fun r hr => ?_, hsettled.others⟩
      obtain ⟨final, hbecomes, hget⟩ := hsettled.final r hr
      exact ⟨final, hget, hbecomes.isRetryable⟩
    exact hfinal.settled hkeyed hget fun _ _ => hkeep
  error error herror := by
    subst herror
    exact h
  others key record hget hout := by
    have hne : ∀ r ∈ outbox.replayPlanMatching keep, r.key ≠ key := by
      intro r hr hkey
      obtain ⟨hgetr, hretry, hkeep⟩ := (mem_plan_iff hkeyed).mp hr
      rw [hkey, hget] at hgetr
      cases hgetr
      simp [hretry, hkeep] at hout
    have hsame : outbox'.get key = outbox.get key := by
      cases result with
      | ok offsets => exact RecordsFinal.others h key hne
      | error error => exact StoppedIn.others h hne
    rw [hsame, hget]

/-- A replay of a plan ends as the loop says, and leaves the outbox drained of the plan or
stopped. -/
theorem materializeWith_drains (hkeyed : state.outbox.Keyed)
    (hcap : 0 < state.outboxReplayBatchCap.toNat)
    {result : Except BaseRelayError (List StoreOffset)} {state' : GroupServiceState} {s' : σ}
    (hrun : execState handle
      (materializeWith pocket fun outbox => outbox.replayPlanMatching keep) state s =
        (result, state', s')) :
    LoopEnds handle pocket keep state s (result, state', s') ∧
      Drained handle keep state.outbox state'.outbox result := by
  rw [materializeWith, execState_bind, execState_get] at hrun
  obtain ⟨hloop, hend⟩ := materializeLoop_ends hkeyed hcap (Nat.lt_succ_self _) hrun
  exact ⟨hloop, drained_of_ends hkeyed hend⟩

end GroupServiceState

end

/-- **The outbox drains however the store behaves.** The loop over all records and the loop over
those of one group end. When they succeed, no included record is left to be tried again. When they
fail, the records before one record of the plan are stored or skipped; that record is to be tried
again with one more attempt counted, or is itself stored or skipped and its row was refused; and the
others are as they were. -/
theorem materializeOutbox_drains {σ : Type} (handle : Handler storeInterface σ)
    (pocket : PocketTypes)
    (state : GroupServiceState) (s : σ) (hkeyed : state.outbox.Keyed)
    (hcap : 1 ≤ state.outboxReplayBatchCap) :
    (∀ result state' s',
      execState handle (GroupServiceState.materializeOutbox pocket) state s = (result, state', s') →
        LoopEnds handle pocket (fun _ => true) state s (result, state', s') ∧
          Drained handle (fun _ => true) state.outbox state'.outbox result) ∧
    ∀ groupId result state' s',
      execState handle (GroupServiceState.materializeOutboxForGroup pocket groupId) state s =
          (result, state', s') →
        LoopEnds handle pocket (fun record => record.key.groupId == groupId) state s
            (result, state', s') ∧
          Drained handle (fun record => record.key.groupId == groupId) state.outbox state'.outbox
            result := by
  have hcap : 0 < state.outboxReplayBatchCap.toNat := UInt32.le_iff_toNat_le.mp hcap
  refine ⟨fun result state' s' hrun => ?_, fun groupId result state' s' hrun => ?_⟩
  · exact materializeWith_drains hkeyed hcap hrun
  · exact materializeWith_drains hkeyed hcap hrun

namespace Sample

/-- A store that takes every event, but no row of the outbox. -/
def rowless : Handler storeInterface Unit
  | .eventById _, _ => (.ok none, ())
  | .storeEvent _, _ => (.ok 8, ())
  | .scanEventsAfter _, _ => (.ok [], ())
  | .getExtraRecord _ _, _ => (.ok none, ())
  | .putExtraRecord table _ _, _ => (if table = .outbox then .error "disk full" else .ok (), ())
  | .deleteExtraRecord _ _, _ => (.ok (), ())
  | .scanExtraRecords _, _ => (.ok [], ())

/-- The member's admission is to be announced. -/
def announcement : GroupOutboxRecord :=
  .pending ⟨eventId 9021 10 [], .joinAccepted, farm, some member⟩
    (GroupGeneratedEventBuilder.joinAcceptedPayload farm member 10)

/-- A service with the admission of one member to announce. -/
def announcing : GroupServiceState where
  builder := ⟨⟨⟨List.replicate 64 '7', isHex64_sevens⟩, owner⟩⟩
  authority := .new [owner] []
  projection := .new
  outbox := GroupOutbox.new.update announcement
  policy := ⟨true, false⟩
  limits := .default
  memberSnapshotCap := 10
  outboxReplayBatchCap := 1

/-- That service's outbox is keyed. -/
theorem announcing_keyed : announcing.outbox.Keyed := by
  have hnew : GroupOutbox.new.Keyed := by
    intro key record hget
    rw [GroupOutbox.get, GroupOutbox.new, BTreeMap.getElem?_empty] at hget
    cases hget
  exact hnew.update announcement

end Sample

section
open Sample

/-- The theorem at a service that announces one admission, over a store that takes no record. -/
theorem materializeOutbox_drains_announcing :
    1 ≤ announcing.outboxReplayBatchCap ∧ announcing.outbox.replayPlan = [announcement] ∧
      ∃ result, LoopEnds rowless pocket (fun _ => true) announcing () result ∧
        Drained rowless (fun _ => true) announcing.outbox result.2.1.outbox result.1 := by
  have hcap : 1 ≤ announcing.outboxReplayBatchCap := by decide
  have hplan : announcing.outbox.replayPlan = [announcement] := by decide +kernel
  obtain ⟨hall, _⟩ := materializeOutbox_drains rowless pocket announcing () announcing_keyed hcap
  rcases hrun : execState rowless (GroupServiceState.materializeOutbox pocket) announcing () with
    ⟨result, state', s'⟩
  exact ⟨hcap, hplan, (result, state', s'), hall result state' s' hrun⟩

/-- A drain ended with an error and left no record that has failed. -/
def failedUnmarked {ε α σ : Type} (ends : Except ε α × GroupServiceState × σ) : Bool :=
  match ends with
  | (.error _, state', _) => state'.outbox.records.toList.all fun entry =>
      entry.2.status != .failed true && entry.2.status != .failed false
  | _ => false

/-- A drain that fails and leaves no record that has failed: the event is stored and its record
marked, and it is the writing of the record's row that fails. -/
theorem failed_drain_marks_nothing : ∃ error state',
    execState rowless (GroupServiceState.materializeOutbox pocket) announcing () =
        (.error error, state', ()) ∧
      ∀ key record, state'.outbox.get key = some record →
        ∀ retryable, record.status ≠ .failed retryable := by
  have hrun : failedUnmarked
      (execState rowless (GroupServiceState.materializeOutbox pocket) announcing ()) = true := by
    decide +kernel
  rcases hend : execState rowless (GroupServiceState.materializeOutbox pocket) announcing () with
    ⟨error | offsets, state', s'⟩
  · rw [hend] at hrun
    refine ⟨error, state', rfl, fun key record hget retryable heq => ?_⟩
    have hnot := List.all_eq_true.mp hrun (key, record) (BTreeMap.mem_toList.mpr hget)
    cases retryable with
    | true => simp [heq] at hnot
    | false => simp [heq] at hnot
  · rw [hend] at hrun
    cases hrun

end

end Tangle
