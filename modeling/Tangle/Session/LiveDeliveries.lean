import Tangle.Session.LiveEvents

/-!
# What is stored while a connection is open

An event that is stored while a connection is open reaches it: its offset is published once by the
connection that the event came from, is taken once from the event bus, and the event is then sent
once to each subscription that it is for (`stored_sent_live`).
-/

namespace Tangle

/-- An event is read at the offset at which it lies. -/
def PocketReads.ReadsStored (reads : PocketReads) : Prop :=
  ∀ (events : List StoredEvent) (item : StoredEvent), (events.map StoredEvent.storeOffset).Nodup →
    item ∈ events → reads.eventByOffset events item.storeOffset = .ok item.event

section
variable {base store store' : PocketStore}

/-- A store has grown from where it is by nothing. -/
theorem Grows.refl (store : PocketStore) : Grows store store :=
  ⟨[], (List.append_nil _).symm, .nil⟩

/-- No two events of a store that has grown from nothing lie at one offset. -/
theorem Grows.nodup (h : Grows .empty store) :
    (store.events.map StoredEvent.storeOffset).Nodup := by
  obtain ⟨items, hevents, hordered⟩ := h
  rw [hevents]
  exact List.pairwise_map.mpr (hordered.imp fun hlt => Nat.ne_of_lt hlt)

/-- What lies in a store lies there when it has grown. -/
theorem Grows.subset (h : Grows store store') {item : StoredEvent} (hitem : item ∈ store.events) :
    item ∈ store'.events := by
  obtain ⟨items, hevents, _⟩ := h
  rw [hevents]
  exact List.mem_append_left _ hitem

end

namespace RelayProcess

variable {σ : Type} {runtime : RelaySessionRuntime σ} {first process : RelayProcess σ}
  {allowed : Option GroupServiceState → PocketStore → PocketEvent →
    List StoreExchange → Prop} {start base : PocketStore}
  {trace earlier later : List Observation} {connection : Nat} {live : LiveSession}
  {offset : StoreOffset}

/-- However a process goes on, its store only grows. -/
theorem Continues.grows (h : Continues runtime allowed first trace process)
    (hfirst : Grows base first.store) : Grows base process.store := by
  induction h with
  | here => exact hfirst
  | step _ hstep ih => exact hstep.grows ih

/-- The store of a run has grown from where it was at the start. -/
theorem Runs.grows (h : Runs runtime allowed start trace process) (hstart : Grows base start) :
    Grows base process.store := by
  induction h with
  | started _ => exact hstart
  | step _ hstep ih => exact hstep.grows ih

/-- On the way from the first process to the last, on which `later` is seen, the connection takes an
offset: where it does, where it gets to, and what is seen before and after. -/
structure TakenOnTheWay (runtime : RelaySessionRuntime σ) (first : RelayProcess σ)
    (connection : Nat)
    (offset : StoreOffset) (past : List Observation) (taken after : RelayProcess σ)
    (future later : List Observation) (last : RelayProcess σ) : Prop where
  seen : later = past ++ .consumed connection offset :: future
  reached : Continues runtime (GoesThrough runtime.relay) first past taken
  takes : Step runtime (GoesThrough runtime.relay) taken [.consumed connection offset] after
  goesOn : Continues runtime (GoesThrough runtime.relay) after future last

/-- What a connection is to take next has been published. -/
theorem Runs.published_of_recv (h : Runs runtime allowed start trace process)
    (hlive : process.sessions[connection]? = some live)
    (hrecv : (process.eventBus.recv live.nextEvent).1 = .value offset) :
    offset ∈ publishedIn trace := by
  have htracked := h.tracked
  obtain ⟨earlier, later, htrace⟩ := List.append_of_mem (htracked.opened connection live hlive)
  obtain ⟨rest, next, hfollows, hplace⟩ := htracked.follows connection earlier later htrace
  rw [hplace live hlive] at hrecv
  exact hfollows.mem_of_recv Broadcast.laws htracked.carries hrecv

/-- A connection for which the bus holds nothing has taken what was published since it was
opened. -/
theorem Runs.consumedBy_of_empty (h : Runs runtime allowed start trace process)
    (htrace : trace = earlier ++ .opened connection :: later)
    (hlive : process.sessions[connection]? = some live)
    (hempty : (process.eventBus.recv live.nextEvent).1 = .empty) :
    consumedBy connection later = publishedIn later := by
  have htracked := h.tracked
  obtain ⟨rest, next, hfollows, hplace⟩ := htracked.follows connection earlier later htrace
  rw [hplace live hlive] at hempty
  obtain rfl := hfollows.rest_eq_nil Broadcast.laws htracked.carries hempty
  have hvalues := hfollows.values
  have hsplit : publishedIn trace = publishedIn earlier ++ publishedIn later := by
    rw [htrace, publishedIn_append]
    rfl
  rw [hsplit, List.append_nil] at hvalues
  exact (List.append_cancel_left hvalues).symm

/-- What has been published was stored. -/
theorem Runs.stored_of_published (h : Runs runtime allowed start trace process)
    (hpublished : offset ∈ publishedIn trace) : offset ∈ storedIn trace := by
  obtain ⟨other, hother⟩ := mem_publishedIn.mp hpublished
  refine mem_storedIn.mpr ⟨other, ?_⟩
  rw [h.owes]
  exact List.mem_append_left _ hother

/-- What was stored in a part of a run was not published before. -/
theorem Runs.published_of_stored {before : RelayProcess σ} {between : List Observation}
    (hbefore : Runs runtime allowed start trace before)
    (hnodup : (storedIn (trace ++ between)).Nodup) (hstored : offset ∈ storedIn between)
    (hpublished : offset ∈ publishedIn (trace ++ between)) : offset ∈ publishedIn between := by
  rw [publishedIn_append] at hpublished
  refine (List.mem_append.mp hpublished).resolve_left fun hearly => ?_
  rw [storedIn_append] at hnodup
  exact absurd rfl ((List.nodup_append.mp hnodup).2.2 offset (hbefore.stored_of_published hearly)
    offset hstored)

/-- An event that lies in a store whose run has gone on lay there when its offset was published. -/
theorem Runs.lies_of_published {store : PocketStore} {item : StoredEvent}
    (h : Runs runtime (GoesThrough runtime.relay) start trace process)
    (hgrows : Grows process.store store) (hordered : Grows .empty store)
    (hitem : item ∈ store.events) (hpublished : item.storeOffset ∈ publishedIn trace) :
    item ∈ process.store.events := by
  obtain ⟨known, hknown, hoffsets, _⟩ := published_all h.publishes
  have hstored := h.stored_of_published hpublished
  rw [← hoffsets] at hstored
  obtain ⟨found, hfound, hsame⟩ := List.mem_map.mp hstored
  have hlies : found ∈ process.store.events := by
    rw [hknown]
    exact List.mem_append_right _ hfound
  rw [← List.inj_on_of_nodup_map hordered.nodup (hgrows.subset hlies) hitem hsame]
  exact hlies

end RelayProcess

theorem mem_consumedBy {connection : Nat} {offset : StoreOffset} {trace : List Observation} :
    offset ∈ consumedBy connection trace ↔ .consumed connection offset ∈ trace := by
  rw [consumedBy, List.mem_filterMap]
  constructor
  · rintro ⟨observation, hmem, hconsumed⟩
    cases observation with
    | consumed by' other =>
      simp only [Observation.consumed?] at hconsumed
      split at hconsumed
      · next heq =>
        cases hconsumed
        rw [← heq]
        exact hmem
      · cases hconsumed
    | _ => cases hconsumed
  · intro hmem
    exact ⟨_, hmem, if_pos rfl⟩

/-- **What is stored while a connection is open is sent to it once.** In a process whose submissions
all go through, and whose hooks leave events as they are, take a run from where a connection is
opened to where it is open still, has answered everything and has taken what the event bus held for
it. Each event that was stored in between, and whose offset has been published, it has taken exactly
once. Wherever on the way it has taken it, the event lay in the store already, and the connection
then sent it to each of its subscriptions of that moment that the event was for, once and to no
other. -/
theorem stored_sent_live {σ : Type} {runtime : RelaySessionRuntime σ} {start : PocketStore}
    {earlier later : List Observation} {before opened process : RelayProcess σ} {connection : Nat}
    {replies : List SessionReply} {live : LiveSession} (hemits : runtime.deliveryHooks.EmitsAll)
    (hnone : runtime.deliveryHooks.NamesNone) (hmatches : runtime.reads.MatchesTotal)
    (hreads : runtime.reads.ReadsStored)
    (hordered : start.events.Pairwise fun a b => a.storeOffset < b.storeOffset)
    (hbefore : RelayProcess.Runs runtime (GoesThrough runtime.relay) start earlier before)
    (hopens : RelayProcess.Step runtime (GoesThrough runtime.relay) before
      [.opened connection, .answered connection replies] opened)
    (hmore : RelayProcess.Continues runtime (GoesThrough runtime.relay) opened later process)
    (hlive : process.sessions[connection]? = some live) (hidle : live.answering = none)
    (hempty : (process.eventBus.recv live.nextEvent).1 = .empty) :
    ∃ items, process.store.events = before.store.events ++ items ∧ ∀ item ∈ items,
      item.storeOffset ∈ publishedIn (earlier ++ later) →
        (consumedBy connection later).count item.storeOffset = 1 ∧
          (∃ past taken after future,
            RelayProcess.TakenOnTheWay runtime opened connection item.storeOffset past
            taken after future later process) ∧
          ∀ past taken after future,
            RelayProcess.TakenOnTheWay runtime opened connection item.storeOffset past
            taken after future later process →
            item ∈ taken.store.events ∧ ∃ live', taken.sessions[connection]? = some live' ∧
              ((RelayEventContext.fromPocketEvent runtime.reads item.event).Succeeds →
                ∃ ids : List SubscriptionId, ids.Nodup ∧
                  (∀ id, id ∈ ids ↔
                    ∃ filters, live'.session.subscriptions.subscriptions[id]? = some filters ∧
                      GetsLive (taken.handle runtime).toRelayServices live'.groupAuth item.event
                        filters) ∧
                  AnswersNext connection (ids.map fun id => .event id item.event) future) := by
  have hopening : RelayProcess.Runs runtime (GoesThrough runtime.relay) start
      (earlier ++ [.opened connection, .answered connection replies]) opened :=
    hbefore.step hopens
  have h := hopening.continues hmore
  have hsplit : earlier ++ [.opened connection, .answered connection replies] ++ later =
      earlier ++ .opened connection :: (.answered connection replies :: later) := by
    rw [List.append_assoc]
    rfl
  obtain ⟨items, hitems, hordered'⟩ := hmore.grows (hopens.grows (.refl before.store))
  obtain ⟨all, hall, halloffsets, hallnodup⟩ := published_all h.publishes
  obtain ⟨old, hold, holdoffsets, _⟩ := published_all hbefore.publishes
  have hparts : all = old ++ items := by
    rw [hall, hold, List.append_assoc] at hitems
    exact List.append_cancel_left hitems
  have hlateroffsets : items.map StoredEvent.storeOffset = storedIn later := by
    rw [hparts, List.map_append, holdoffsets, List.append_assoc, storedIn_append] at halloffsets
    exact List.append_cancel_left halloffsets
  have hnodup : (storedIn (earlier ++ later)).Nodup := by
    rw [List.append_assoc, storedIn_append] at hallnodup
    rw [storedIn_append]
    exact hallnodup
  have hconsumed : consumedBy connection later = publishedIn later := by
    have hboth := h.consumedBy_of_empty hsplit hlive hempty
    exact hboth
  have hstart : Grows .empty start := ⟨start.events, rfl, hordered⟩
  refine ⟨items, hitems, ?_⟩
  intro item hitem hpublished
  have hstored : item.storeOffset ∈ storedIn later := by
    rw [← hlateroffsets]
    exact List.mem_map_of_mem hitem
  have htaken : item.storeOffset ∈ consumedBy connection later := by
    rw [hconsumed]
    exact hbefore.published_of_stored hnodup hstored hpublished
  refine ⟨?_, ?_, ?_⟩
  · refine List.count_eq_one_of_mem ?_ htaken
    have hall := h.nodup_publishedIn hallnodup
    rw [publishedIn_append] at hall
    rw [hconsumed]
    exact (List.nodup_append.mp hall).2.1
  · obtain ⟨past, future, hlater⟩ := List.append_of_mem (mem_consumedBy.mp htaken)
    obtain ⟨taken, after, hpast, htakes, hfuture⟩ := hmore.cut_consumed hlater
    exact ⟨past, taken, after, future, hlater, hpast, htakes, hfuture⟩
  · rintro past taken after future ⟨hlater, hpast, htakes, hfuture⟩
    have hreached := hopening.continues hpast
    obtain ⟨_, live', hlive', hrecv, now, hnow, hanswering⟩ :=
      htakes.takes (List.mem_singleton_self _)
    have hgrows : Grows taken.store process.store :=
      hfuture.grows (htakes.grows (.refl taken.store))
    have hlies : item ∈ taken.store.events := by
      refine hreached.lies_of_published hgrows (h.grows hstart) ?_
        (hreached.published_of_recv hlive' hrecv)
      rw [hitems]
      exact List.mem_append_right _ hitem
    refine ⟨hlies, live', hlive', fun htext => ?_⟩
    have hread := hreads _ item (hreached.grows hstart).nodup hlies
    obtain ⟨ids, hids, hiff, hreplies⟩ :=
      @RelayProcess.handleEventOffset_sends _ _ _ live' hemits hnone hmatches _ _ hread htext
    rw [hreplies] at hanswering
    refine ⟨ids, hids, hiff, ?_⟩
    -- at the end of the run the connection has nothing to answer any more
    refine (hfuture.waits (hreached.step htakes) hnow hanswering).resolve_right ?_
    rintro ⟨_, last, hlast, hstill⟩
    cases hlast.symm.trans hlive
    rw [hidle] at hstill
    cases hstill

namespace Sample

theorem plainReads_readsStored : plainReads.ReadsStored := by
  intro events item hnodup hitem
  cases hfound : events.find? fun other => other.storeOffset == item.storeOffset with
  | none =>
    have hall := List.find?_eq_none.mp hfound item hitem
    simp at hall
  | some found =>
    have hsame : found.storeOffset = item.storeOffset := by
      simpa using List.find?_some hfound
    have hitem' := List.inj_on_of_nodup_map hnodup (List.mem_of_find?_eq_some hfound) hitem hsame
    unfold plainReads
    dsimp only
    rw [hfound, hitem']

end Sample

open Sample in
/-- Both notes are stored while the first visitor is connected, who takes each of them once. -/
theorem stored_sent_live_visit : ∃ earlier before opened later process items,
    RelayProcess.Runs liveRuntime (GoesThrough liveRuntime.relay) .empty earlier before ∧
      RelayProcess.Continues liveRuntime (GoesThrough liveRuntime.relay) opened later process ∧
      process.store.events = before.store.events ++ items ∧ items.length = 2 ∧ ∀ item ∈ items,
        item.storeOffset ∈ publishedIn (earlier ++ later) →
          (consumedBy 0 later).count item.storeOffset = 1 ∧
            ∃ past taken after future, RelayProcess.TakenOnTheWay liveRuntime opened 0
              item.storeOffset past taken after future later process := by
  have htaken : (takenAround [] (.opens visitor) (visit.drop 1)).any (fun taken =>
      decide (taken.2.1.1 = [.opened 0, .answered 0 [.protocol (.relay (.auth "c".toList))]] ∧
        taken.1.2.store.events = [] ∧ taken.2.2.2.store.events.length = 2 ∧
        ∃ live, taken.2.2.2.sessions[0]? = some live ∧ live.answering = none ∧
          (taken.2.2.2.eventBus.recv live.nextEvent).1 = .empty)) = true := by
    decide +kernel
  obtain ⟨earlier, before, seen, opened, later, process, hbefore, hopens, hmore, rfl,
    hnothing, hboth, live, hlive, hidle, hempty⟩ := cut_of_takenAround htaken
  obtain ⟨items, hitems, hsent⟩ := stored_sent_live (fun _ _ => rfl) (fun _ _ => rfl)
    plainReads_matchesTotal plainReads_readsStored .nil hbefore hopens hmore hlive hidle hempty
  have hlength : items.length = 2 := by
    rw [hitems, hnothing, List.nil_append] at hboth
    exact hboth
  refine ⟨earlier, before, opened, later, process, items, hbefore, hmore, hitems, hlength, ?_⟩
  intro item hitem hpublished
  obtain ⟨hone, hway, -⟩ := hsent item hitem hpublished
  exact ⟨hone, hway⟩

end Tangle
