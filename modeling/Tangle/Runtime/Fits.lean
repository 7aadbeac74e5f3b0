import Tangle.Groups.MetadataSize
import Tangle.Groups.ProjectionMaps
import Tangle.Runtime.Upkeep

/-!
# Group metadata always fits

Every event of the store exists in Pocket's format, so its tag section is bounded, and metadata
comes from nowhere but an event's tags. So the metadata of every group, in memory and in the rows of
the projection table, makes a tag section within the bound, at every state a relay passes through:
in the middle of a write or a start, and after any number of them (`Relay.Reaches.fits`).
-/

namespace Tangle

open GroupEventView

variable {codec : TagCodec}

/-! ## Projections -/

/-- The metadata of a group makes a tag section within the bound. -/
def GroupState.Fits (codec : TagCodec) (group : GroupState) : Prop :=
  codec.size (toTagValues (uncheckedMetadataTags group.id group.metadata)) ≤ maxTagSectionBytes

/-- Every group stands under its own id and its metadata fits. -/
def GroupProjection.Fits (codec : TagCodec) (projection : GroupProjection) : Prop :=
  ∀ groupId group, projection.group groupId = some group → group.id = groupId ∧ group.Fits codec

theorem GroupProjection.Fits.new : GroupProjection.new.Fits codec := by
  intro groupId group h
  simp [GroupProjection.new, GroupProjection.group] at h

/-- Applying an event that exists in Pocket's format keeps the metadata within the bound. -/
theorem GroupProjection.Fits.applyItem {limits : GroupLimitsConfig}
    {projection projection' : GroupProjection} {item : CanonicalGroupEvent}
    (hfits : projection.Fits codec) (hitem : item.event.Fits codec)
    (h : applyItem limits projection item = .ok projection') : projection'.Fits codec := by
  obtain ⟨action, haction, _, rfl⟩ := applyItem_eq_ok.mp h
  intro groupId group hgroup
  have hnew : ∀ {metadata}, action.groupMetadata = some (groupId, metadata) →
      codec.size (toTagValues (uncheckedMetadataTags groupId metadata)) ≤ maxTagSectionBytes := by
    intro metadata hmetadata
    obtain ⟨hread, eventClass, hclass, hgroupId⟩ :=
      ProjectionAction.groupMetadata_of_eventAction haction hmetadata
    exact le_trans (size_uncheckedMetadataTags_le hclass hgroupId hread) hitem
  rcases ProjectionAction.groupsAfter_cases hgroup with
    ⟨before, hbefore, hid, hmetadata⟩ | ⟨hid, hmetadata⟩
  · obtain ⟨hidBefore, hfitsBefore⟩ := hfits groupId before hbefore
    have hidGroup : group.id = groupId := hid.trans hidBefore
    refine ⟨hidGroup, ?_⟩
    unfold GroupState.Fits
    rcases hmetadata with hmetadata | hmetadata
    · rw [hid, hmetadata]
      exact hfitsBefore
    · rw [hidGroup]
      exact hnew hmetadata
  · refine ⟨hid, ?_⟩
    unfold GroupState.Fits
    rw [hid]
    exact hnew hmetadata

theorem GroupProjection.Fits.applyItems {limits : GroupLimitsConfig}
    {projection projection' : GroupProjection} {items : List CanonicalGroupEvent}
    (hfits : projection.Fits codec) (hitems : ∀ item ∈ items, item.event.Fits codec)
    (h : applyItems limits projection items = .ok projection') : projection'.Fits codec :=
  Except.foldlM_invariant (GroupProjection.Fits codec)
    (fun _ item _ hitem hp hstep => hp.applyItem (hitems item hitem) hstep) hfits h

/-! ## Rows -/

/-- A group that the row is read back as fits. -/
def ExtraValue.Fits (codec : TagCodec) (value : ExtraValue) : Prop :=
  ∀ group, GroupState.fromJsonBytes value = .ok group → group.Fits codec

/-- The row of a group that fits fits. -/
theorem groupRow_fits {group : GroupState} (h : group.Fits codec) : group.toJsonBytes.Fits codec :=
  fun _ hread => (GroupState.fromJsonBytes_toJsonBytes_eq_ok.mp hread).1 ▸ h

/-- The rows of a projection that fits fit. -/
theorem GroupProjection.Fits.row {projection : GroupProjection} {key : ProjectionKey}
    {value : ExtraValue} (h : projection.Fits codec) (hrow : projection.row key = some value) :
    value.Fits codec := by
  cases key with
  | group groupId =>
    obtain ⟨group, hgroup, rfl⟩ := Option.map_eq_some_iff.mp hrow
    exact groupRow_fits (h groupId group hgroup).2
  | _ =>
    obtain ⟨entry, _, rfl⟩ := Option.map_eq_some_iff.mp hrow
    exact fun _ hread => (nomatch hread)

/-- A projection read from rows that fit fits. -/
theorem loadProjectionRow_fits {projection projection' : GroupProjection} {key : Text}
    {value : ExtraValue} (hfits : projection.Fits codec) (hvalue : value.Fits codec)
    (h : loadProjectionRow projection key value = .ok projection') : projection'.Fits codec := by
  have hgroups : ∀ {p : GroupProjection}, p.groups = projection.groups → p.Fits codec :=
    fun {p} hp groupId group hgroup => hfits groupId group (by
      rw [← hgroup, GroupProjection.group, GroupProjection.group, hp])
  rcases loadProjectionRow_cases h with ⟨group, hread, rfl⟩ | ⟨tombstone, rfl⟩ |
    ⟨deletion, _, rfl⟩ | ⟨groupId, member, rfl⟩ | ⟨groupId, role, rfl⟩
  · intro groupId found hfound
    rw [GroupProjection.group, GroupProjection.putGroup, BTreeMap.getElem?_insert] at hfound
    split at hfound
    · next hid =>
      cases hfound
      exact ⟨hid, hvalue group hread⟩
    · exact hfits groupId found hfound
  · exact hgroups (by rw [GroupProjection.putTombstone_eq])
  · exact hgroups (by rw [GroupProjection.putEventDeletion_eq])
  · exact hgroups (by rw [GroupProjection.putMember_eq])
  · refine hgroups ?_
    unfold GroupProjection.putRole
    dsimp only
    split
    · rfl
    · rfl

/-! ## The store -/

/-- The store's events exist in Pocket's format and its group rows fit. -/
structure PocketStore.Fits (codec : TagCodec) (store : PocketStore) : Prop where
  events : ∀ stored ∈ store.events, stored.event.Fits codec
  rows : ∀ (key : Text) (value : ExtraValue), store.projection[key]? = some value →
    value.Fits codec

theorem PocketStore.Fits.empty : PocketStore.empty.Fits codec where
  events := fun _ h => (nomatch h)
  rows := fun key value h => by simp [PocketStore.empty] at h

theorem PocketStore.Fits.storeEvent {store : PocketStore} {stored : StoredEvent}
    (h : store.Fits codec) (hevent : stored.event.Fits codec) :
    PocketStore.Fits codec { store with events := store.events ++ [stored] } where
  events := by
    intro other hother
    rcases List.mem_append.mp hother with hother | hother
    · exact h.events other hother
    · exact List.mem_singleton.mp hother ▸ hevent
  rows := h.rows

theorem PocketStore.Fits.putRow {store : PocketStore} {key : Text} {value : ExtraValue}
    (h : store.Fits codec) (hvalue : value.Fits codec) :
    PocketStore.Fits codec { store with projection := store.projection.insert key value } where
  events := h.events
  rows key' value' hrow := by
    dsimp only at hrow
    rw [BTreeMap.getElem?_insert] at hrow
    split at hrow
    · cases hrow
      exact hvalue
    · exact h.rows key' value' hrow

theorem PocketStore.Fits.eraseRow {store : PocketStore} {key : Text} (h : store.Fits codec) :
    PocketStore.Fits codec { store with projection := store.projection.erase key } where
  events := h.events
  rows key' value' hrow := by
    dsimp only at hrow
    rw [BTreeMap.getElem?_erase] at hrow
    split at hrow
    · cases hrow
    · exact h.rows key' value' hrow

/-! ## The service -/

/-- An event that was signed exists in Pocket's format. -/
theorem signPayloadPocket_fits {pocket : PocketTypes} (lawful : pocket.Lawful codec)
    {builder : GroupGeneratedEventBuilder} {payload : GroupOutboxPayload} {event : PocketEvent}
    (hkey : pocket.publicKey builder.signer.secret = .ok builder.signer.publicKey)
    (h : GroupGeneratedEventBuilder.signPayloadPocket pocket builder payload = .ok event) :
    event.Fits codec := by
  unfold GroupGeneratedEventBuilder.signPayloadPocket at h
  split at h
  · cases h
  · obtain ⟨_, htags, h⟩ := Except.bind_eq_ok.mp h
    have hsucceeds : (pocket.ownedTags payload.tags).Succeeds :=
      Except.succeeds_mapError.mp ⟨_, htags⟩
    obtain ⟨id, hsign, _⟩ := @PocketTypes.Lawful.signNew_ok _ _ lawful _ _
      (UInt16.ofNat payload.generatedKind) payload.tags payload.generatedCreatedAt payload.content
      hkey hsucceeds
    obtain ⟨signed, hsigned, h⟩ := Except.bind_eq_ok.mp h
    obtain ⟨_, _, h⟩ := Except.bind_eq_ok.mp h
    cases h
    rw [hsign] at hsigned
    cases Except.mapError_eq_ok.mp hsigned
    exact (lawful.ownedTags_iff _).mp hsucceeds

/-- The service's projection fits and its key is the one of its secret. -/
structure GroupServiceState.Fits (pocket : PocketTypes) (codec : TagCodec)
    (state : GroupServiceState) : Prop where
  projection : state.projection.Fits codec
  signer : pocket.publicKey state.builder.signer.secret = .ok state.builder.signer.publicKey

/-- What fits, part by part. -/
def fitsUpkeep (codec : TagCodec) : Upkeep where
  store := PocketStore.Fits codec
  event := PocketEvent.Fits codec
  projection := GroupProjection.Fits codec
  record _ := True
  authority _ := True

/-- Whatever the limits, writes and starts keep it. -/
theorem fitsUpkeep_starts (relay : Relay) (limits : GroupLimitsConfig) :
    (fitsUpkeep relay.codec).Starts relay limits where
  taken hprojection hevent happly := hprojection.applyItem hevent happly
  planned _ _ _ _ _ _ := trivial
  marked _ _ _ := trivial
  generated _ _ hkey hsign := signPayloadPocket_fits relay.lawful hkey hsign
  storeEvent hstore hevent _ := hstore.storeEvent hevent
  putRow hstore hprojection hrow := hstore.putRow (hprojection.row hrow)
  putRecord hstore _ := ⟨hstore.events, hstore.rows⟩
  new := GroupProjection.Fits.new
  authorized _ := trivial
  dated hprojection := hprojection
  scanned hstore hitem := hstore.events _ hitem
  loaded hstore hload := loadGroupProjection_invariant GroupProjection.Fits.new
    (fun _ _ record hrecord hfits hread => loadProjectionRow_fits hfits
      (hstore.rows record.1 record.2 (BTreeMap.mem_toList.mp hrecord)) hread)
    (fun _ _ hfits => hfits) hload
  loadedRecords _ _ _ := trivial
  eraseRow hstore := hstore.eraseRow
  putCheckpoint hstore := ⟨hstore.events, hstore.rows⟩

/-! ## Runs -/

namespace Relay

variable {relay : Relay}

/-- The store fits, and the service when there is one. -/
def WorldFits (relay : Relay) : World → Prop
  | .up groups store => store.Fits relay.codec ∧
      ∀ state, groups = some state → state.Fits relay.pocket relay.codec
  | .down store => store.Fits relay.codec

/-- **Wherever a relay has got to, its store and its service fit.** -/
theorem Reaches.fits {allowed : World → Happening → Prop} {w : World}
    (hw : relay.Reaches allowed w) : relay.WorldFits w := by
  have hkept := fitsUpkeep_starts relay
  -- what a step of the relay leads to, and what it passes through
  have hsubmit : ∀ {event groups store} (auth : GroupAuthContext), event.Fits relay.codec →
      relay.WorldFits (.up groups store) → WpState relay.db.handle (PocketStore.Fits relay.codec)
        (relay.submit event auth) groups store
        (fun _ groups' store' => relay.WorldFits (.up groups' store'))
        fun _ groups' store' => relay.WorldFits (.up groups' store') := by
    intro event groups store auth hevent hfits
    cases groups with
    | none =>
      refine (wp_submit_off hfits.1 fun _ _ _ => hfits.1.storeEvent hevent).mono ?_ ?_
      · exact fun _ _ _ _ ⟨hgroups, hstore⟩ => ⟨hstore, fun _ h => by cases hgroups; cases h⟩
      · exact fun _ _ _ _ ⟨hgroups, hstore⟩ => ⟨hstore, fun _ h => by cases hgroups; cases h⟩
    | some state =>
      have hstate := hfits.2 state rfl
      have hholds : (fitsUpkeep relay.codec).Holds relay state.limits state :=
        ⟨hstate.projection, fun _ _ _ => trivial, hstate.signer, trivial, rfl⟩
      have hend : ∀ groups' store', store'.Fits relay.codec →
          (∃ state', groups' = some state' ∧
            (fitsUpkeep relay.codec).Holds relay state.limits state') →
          relay.WorldFits (.up groups' store') := by
        rintro groups' store' hstore' ⟨state', rfl, hholds'⟩
        refine ⟨hstore', fun found hfound => ?_⟩
        cases hfound
        exact ⟨hholds'.projection, hholds'.signer⟩
      exact (Upkeep.wp_submit (hkept state.limits).toWrites hholds hfits.1 (fun _ => hevent)
        (fun _ _ _ _ => trivial) fun _ _ _ => hevent).mono
        (fun _ groups' store' => hend groups' store') fun _ groups' store' => hend groups' store'
  refine hw.invariant PocketStore.Fits.empty fun {w happening w'} hfits _ hstep => ?_
  cases hstep with
  | @started config now store store' groups hrun =>
    obtain ⟨hstates, hresult⟩ :=
      @Upkeep.keeps_start _ relay config now (hkept config.limits) _ hfits
    have hend := hstates _ (Prog.run_mem_states _ _)
    unfold exec at hrun
    rw [hrun] at hend hresult
    refine ⟨hend, fun state hstate => ?_⟩
    have hholds := (hresult _ rfl state hstate).1
    exact ⟨hholds.projection, hholds.signer⟩
  | @startStopped config now store store' hmem =>
    exact (Upkeep.keeps_start (hkept config.limits) _ hfits).1 _ hmem
  | @submitted event auth groups store result groups' store' hevent hrun =>
    have hend := (hsubmit auth hevent hfits).exec hrun
    cases result with
    | ok write => exact hend
    | error error => exact hend
  | submitStopped hevent hmem => exact (hsubmit _ hevent hfits).1 _ hmem
  | stopped => exact hfits.1

end Relay

end Tangle
