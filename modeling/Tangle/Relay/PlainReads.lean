import Tangle.Lib.Firsts
import Tangle.Pocket.Queries

/-!
# A plain search

A store that is searched as plainly as can be: the events that match a filter, from the newest on,
until as many as the filter is limited to have been found. It is a search as the relay assumes one
(`plainSearch`).
-/

namespace Tangle.Sample

/-! ## Matching -/

/-- Whether the event has a tag of the name of the filter's tag, with one of its values. -/
def tagMatches (event : PocketEvent) : List TagValue → Bool
  | [] => true
  | name :: values => event.tags.any fun tag =>
    match tag with
    | tagName :: value :: _ => tagName == name && values.contains value
    | _ => false

def plainMatches (filter : PocketFilter) (event : PocketEvent) : Bool :=
  (filter.ids.isEmpty || filter.ids.contains event.id) &&
    (filter.authors.isEmpty || filter.authors.contains event.pubkey) &&
    (filter.kinds.isEmpty || filter.kinds.contains event.kind) &&
    filter.since ≤ event.createdAt && event.createdAt ≤ filter.until &&
    filter.tags.all (tagMatches event)

/-! ## Searching -/

section
variable {σ : Type} (screen : PocketScreen σ)

/-- Screens the candidates in their order until enough are found. -/
def plainScan : Nat → List PocketEvent → StateM σ PocketScreenedEvents
  | 0, _ | _, [] => return ⟨[], false⟩
  | wanted + 1, event :: rest => do
    match ← screen event with
    | .isMatch =>
      let scanned ← plainScan wanted rest
      return { scanned with events := event :: scanned.events }
    | .mismatch => plainScan (wanted + 1) rest
    | .redacted =>
      let scanned ← plainScan (wanted + 1) rest
      return { scanned with redacted := true }

end

/-- The candidates that are screened before enough are found. -/
def plainScreened (decides : PocketEvent → PocketScreenResult) :
    Nat → List PocketEvent → List PocketEvent
  | 0, _ | _, [] => []
  | wanted + 1, event :: rest =>
    event :: plainScreened decides (if decides event = .isMatch then wanted else wanted + 1) rest

/-- The stored events, those of one id only once. -/
def plainFindable (events : List StoredEvent) : List PocketEvent :=
  firstsBy PocketEvent.id ∅ (events.map StoredEvent.event)

/-- The events that match, the newest first. -/
def plainCandidates (events : List StoredEvent) (filter : PocketFilter) : List PocketEvent :=
  ((plainFindable events).filter fun event => plainMatches filter event).insertionSort NewerFirst

/-- How many events a filter wants, of so many candidates. -/
def plainWanted (filter : PocketFilter) (candidates : List PocketEvent) : Nat :=
  if filter.limit = PocketFilter.noLimit then candidates.length else filter.limit.toNat

def plainReads : PocketReads where
  refusesFilter _ := none
  eventMatches filter event := .ok (plainMatches filter event)
  findEvents events filter _ screen := Except.ok <$>
    plainScan screen (plainWanted filter (plainCandidates events filter))
      (plainCandidates events filter)
  eventByOffset events offset :=
    match events.find? fun item => item.storeOffset == offset with
    | some item => .ok item.event
    | none => .error "no event at this offset"
  utf8Error _ := "invalid utf-8 sequence"
  hyperloglogOffset filter := .ok (if filter.tags.length = 1 then some 8 else none)
  Hll8 := List PublicKeyHex
  newHll8 := []
  addElement registers pubkey _ := .ok (pubkey :: registers)
  toHexString registers := String.ofList (Nat.toDigits 16 registers.length)

/-! ## What a scan finds -/

section
variable {σ : Type} {screen : PocketScreen σ} {wanted : Nat} {candidates : List PocketEvent}

/-- A scan finds only what the screen calls a match. -/
theorem isMatch_of_plainScan {s : σ} :
    ∀ event ∈ ((plainScan screen wanted candidates).run s).1.events,
    ∃ t t', (screen event).run t = (.isMatch, t') := by
  induction candidates generalizing wanted s with
  | nil =>
    cases wanted <;> exact fun event hevent => absurd hevent List.not_mem_nil
  | cons candidate rest ih =>
    cases wanted with
    | zero => exact fun event hevent => absurd hevent List.not_mem_nil
    | succ wanted =>
      rw [plainScan, StateT.run_bind]
      rcases hscreen : (screen candidate).run s with ⟨result, s'⟩
      cases result with
      | isMatch =>
        intro event hevent
        rcases List.mem_cons.mp hevent with rfl | hevent
        · exact ⟨s, s', hscreen⟩
        · exact ih event hevent
      | mismatch => exact ih
      | redacted => exact fun event hevent => ih event hevent

theorem plainReads_returnsMatches : plainReads.ReturnsMatches := by
  intro σ events filter query screen s s' screened hrun event hevent
  have hevents : screened = ((plainScan screen (plainWanted filter (plainCandidates events filter))
      (plainCandidates events filter)).run s).1 := by
    have hfst := congrArg Prod.fst hrun
    exact (Except.ok.inj hfst).symm
  exact isMatch_of_plainScan event (hevents ▸ hevent)

/-- What a scan finds and whether it has hidden an event, when the screen decides. -/
theorem plainScan_decides {holds : σ → Prop} {decides : PocketEvent → PocketScreenResult} {s : σ}
    (hscreen : screen.DecidesBy holds candidates decides) (hs : holds s) :
    ((plainScan screen wanted candidates).run s).1 =
        ⟨(candidates.filter fun event => decides event = .isMatch).take wanted,
          (plainScreened decides wanted candidates).any fun event => decides event == .redacted⟩ ∧
      holds ((plainScan screen wanted candidates).run s).2 := by
  induction candidates generalizing wanted s with
  | nil => cases wanted <;> exact ⟨rfl, hs⟩
  | cons candidate rest ih =>
    cases wanted with
    | zero =>
      refine ⟨?_, hs⟩
      rw [plainScreened, List.take_zero]
      rfl
    | succ wanted =>
      obtain ⟨hdecides, hholds⟩ := hscreen candidate (List.mem_cons_self ..) s hs
      have hrest : screen.DecidesBy holds rest decides := fun event hevent =>
        hscreen event (List.mem_cons_of_mem _ hevent)
      rw [plainScan, StateT.run_bind]
      rcases hrun : (screen candidate).run s with ⟨result, s'⟩
      rw [hrun] at hdecides hholds
      dsimp only at hdecides hholds
      subst hdecides
      rw [List.filter_cons, plainScreened]
      cases hresult : decides candidate with
      | isMatch =>
        obtain ⟨hscan, hend⟩ := @ih wanted s' hrest hholds
        refine ⟨?_, hend⟩
        have hscan : (plainScan screen wanted rest s').1 = _ := hscan
        change PocketScreenedEvents.mk (candidate :: (plainScan screen wanted rest s').1.events)
          (plainScan screen wanted rest s').1.redacted = _
        rw [hscan]
        simp [hresult]
      | mismatch =>
        obtain ⟨hscan, hend⟩ := @ih (wanted + 1) s' hrest hholds
        refine ⟨?_, hend⟩
        change ((plainScan screen (wanted + 1) rest).run s').1 = _
        simp [hscan, hresult]
      | redacted =>
        obtain ⟨hscan, hend⟩ := @ih (wanted + 1) s' hrest hholds
        refine ⟨?_, hend⟩
        have hscan : (plainScan screen (wanted + 1) rest s').1 = _ := hscan
        change PocketScreenedEvents.mk (plainScan screen (wanted + 1) rest s').1.events true = _
        rw [hscan]
        simp [hresult]

end

/-- The plain search is a search as the relay assumes one. -/
def plainSearch : PocketSearch plainReads where
  findable := plainFindable
  refusesSearch _ _ := none
  screened events filter _ decides := plainScreened decides
    (plainWanted filter (plainCandidates events filter)) (plainCandidates events filter)
  nodup_findable _ := nodup_keys_firstsBy
  stored_of_findable h := List.mem_map.mp (mem_of_mem_firstsBy h)
  findable_of_screened := by
    intro events filter query decides event hevent
    have hcandidate : ∀ {wanted : Nat} {candidates : List PocketEvent},
        event ∈ plainScreened decides wanted candidates → event ∈ candidates := by
      intro wanted candidates h
      induction candidates generalizing wanted with
      | nil => cases wanted <;> cases h
      | cons candidate rest ih =>
        cases wanted with
        | zero => cases h
        | succ wanted =>
          rw [plainScreened] at h
          rcases List.mem_cons.mp h with rfl | h
          · exact List.mem_cons_self ..
          · exact List.mem_cons_of_mem _ (ih h)
    exact List.mem_of_mem_filter ((List.mem_insertionSort _).mp (hcandidate hevent))
  refused h := nomatch h
  found := by
    intro σ events filter query screen holds decides s _ hscreen hs
    have hcandidates : screen.DecidesBy holds (plainCandidates events filter) decides :=
      fun event hevent =>
        hscreen event (List.mem_of_mem_filter ((List.mem_insertionSort _).mp hevent))
    obtain ⟨hscan, hend⟩ :=
      @plainScan_decides _ _ (plainWanted filter (plainCandidates events filter))
      _ _ _ _ hcandidates hs
    refine ⟨_, _, Prod.ext (congrArg Except.ok hscan) rfl, hend, .of_eq ?_⟩
    have hsorted : ((plainFindable events).filter fun event =>
          plainReads.eventMatches filter event = .ok true ∧ decides event = .isMatch).insertionSort
            NewerFirst =
        (plainCandidates events filter).filter fun event => decides event = .isMatch := by
      have hfilter : ((plainFindable events).filter fun event =>
            plainReads.eventMatches filter event = .ok true ∧ decides event = .isMatch) =
          ((plainFindable events).filter fun event => plainMatches filter event).filter
            fun event => decides event = .isMatch := by
        rw [List.filter_filter]
        refine List.filter_congr fun event _ => ?_
        rw [Bool.decide_and, Bool.and_comm]
        congr 1
        exact Bool.eq_iff_iff.mpr ⟨fun h => Except.ok.inj (of_decide_eq_true h), fun h =>
          decide_eq_true (congrArg Except.ok h)⟩
      rw [hfilter]
      refine eq_of_newerFirst ?_ ?_ (List.pairwise_insertionSort _ _)
        ((List.pairwise_insertionSort _ _).filter _)
      · exact (List.perm_insertionSort _ _).trans ((List.perm_insertionSort _ _).filter _).symm
      · have hfindable : ((plainFindable events).map PocketEvent.id).Nodup := nodup_keys_firstsBy
        have hids : (((plainFindable events).filter fun event => plainMatches filter event).filter
            fun event => decides event = .isMatch).map PocketEvent.id |>.Nodup :=
          hfindable.sublist ((List.filter_sublist.trans List.filter_sublist).map _)
        exact ((List.perm_insertionSort _ _).map _).nodup_iff.mpr hids
    rw [hsorted]
    unfold PocketFilter.takeLimit plainWanted
    split
    · exact List.take_of_length_le (List.length_filter_le _ _)
    · rfl

/-- A scan that wants as many events as there are candidates screens them all. -/
theorem plainScan_eq_screenAll {σ : Type} {screen : PocketScreen σ} {candidates : List PocketEvent}
    {wanted : Nat} (hwanted : candidates.length ≤ wanted) :
    plainScan screen wanted candidates = screen.screenAll candidates := by
  induction candidates generalizing wanted with
  | nil => cases wanted <;> rfl
  | cons candidate rest ih =>
    cases wanted with
    | zero => exact absurd hwanted (Nat.not_succ_le_zero _)
    | succ wanted =>
      rw [List.length_cons] at hwanted
      rw [plainScan, PocketScreen.screenAll]
      congr 1
      funext result
      have hfew : rest.length ≤ wanted := by omega
      have hmore : rest.length ≤ wanted + 1 := by omega
      cases result with
      | isMatch => exact congrArg (· >>= _) (ih hfew)
      | mismatch => exact (ih hmore).trans (bind_pure (screen.screenAll rest)).symm
      | redacted => exact congrArg (· >>= _) (ih hmore)

theorem plainSearch_screensAll : plainSearch.ScreensAll := by
  intro σ events filter query screen s s' screened hlimit _ hrun
  have hwanted : plainWanted filter (plainCandidates events filter) =
      (plainCandidates events filter).length :=
    if_pos hlimit
  have hscan : (screen.screenAll (plainCandidates events filter)).run s = (screened, s') := by
    have hplain : (Except.ok <$> plainScan screen (plainWanted filter
        (plainCandidates events filter)) (plainCandidates events filter)).run s =
          ((.ok screened : Except String PocketScreenedEvents), s') := hrun
    rw [plainScan_eq_screenAll hwanted.ge] at hplain
    have hfst := congrArg Prod.fst hplain
    have hsnd := congrArg Prod.snd hplain
    exact Prod.ext (Except.ok.inj hfst) hsnd
  have hfindable : ((plainFindable events).map PocketEvent.id).Nodup := nodup_keys_firstsBy
  refine ⟨plainCandidates events filter, screened.events, ?_, fun event hevent => ?_,
    fun event hevent hmatches => ?_, hscan, .refl _⟩
  · have hids : (((plainFindable events).filter fun event => plainMatches filter event).map
        PocketEvent.id).Nodup := hfindable.sublist (List.filter_sublist.map _)
    exact ((List.perm_insertionSort _ _).map _).nodup_iff.mpr hids
  · exact List.mem_of_mem_filter ((List.mem_insertionSort _).mp hevent)
  · exact (List.mem_insertionSort _).mpr (List.mem_filter.mpr ⟨hevent, Except.ok.inj hmatches⟩)

theorem plainReads_matchesApartFromLimit : plainReads.MatchesApartFromLimit :=
  fun _ _ => rfl

end Tangle.Sample
