import Tangle.Groups.SnapshotIds
import Tangle.Runtime.Runs

/-!
# The recorded snapshots of a run

While a relay takes one event after another, every group is created before its other events are
stored: the policy takes no event of a group that is not there, and what the relay generates for an
event is of the event's group. The service has taken the events as they arrived. So the ids that the
groups have recorded, and the ids that a rebuild would record, are those of the greatest snapshots
exactly when the stored snapshots are in order (`snapshotIds_converge_iff`).
-/

namespace Tangle

open GroupEventView

section
variable {relay : Relay} {sources : Sources} {must : StoredEvent → Prop}

/-! ## The events of a write -/

/-- An accepted event of a group creates the group, which is not there, or does not create it, and
the group is there. -/
theorem creates_or_present {policy : GroupWritePolicy} {item : StoredEvent}
    {limits : GroupLimitsConfig} {eventClass : GroupEventClass} {groupId : GroupId}
    {auth : GroupAuthContext} {projection : GroupProjection}
    (hclass : classifyGroupEvent item.event limits = .ok eventClass)
    (hgroup : eventClass.groupId = some groupId)
    (hnotSnapshot : ∀ kind groupId, eventClass ≠ .relayGeneratedSnapshot kind groupId)
    (hpolicy : (policy.checkEvent item.event eventClass auth).Succeeds)
    (htakes : (applyItem limits projection item).Succeeds) :
    (CreatesGroup limits groupId item ∧ policy.projection.group groupId = none) ∨
      (¬CreatesGroup limits groupId item ∧
        ∃ group, policy.projection.group groupId = some group) := by
  have hcreate : CreatesGroup limits groupId item →
      eventClass = .moderation (eventKind item.event) groupId ∧
        (eventKind item.event).value = kindGroupCreateGroup := by
    intro hcreates
    obtain ⟨hmoderates, hkind⟩ := hcreates.moderates
    exact ⟨Except.ok.inj (hclass.symm.trans hmoderates), (eventKind_value item.event).trans hkind⟩
  cases eventClass with
  | nonGroup => cases hgroup
  | relayGeneratedSnapshot kind target => exact absurd rfl (hnotSnapshot kind target)
  | normal target =>
    cases hgroup
    refine .inr ⟨fun hcreates => (nomatch (hcreate hcreates).1), ?_⟩
    obtain ⟨decision, hpolicy⟩ := hpolicy
    obtain ⟨_, _, hnormal⟩ := Except.bind_eq_ok.mp hpolicy
    obtain ⟨group, hactive, _⟩ := Except.bind_eq_ok.mp hnormal
    exact ⟨group, (GroupWritePolicy.requireActiveGroup_eq_ok.mp hactive).1⟩
  | moderation kind target =>
    cases hgroup
    obtain rfl := kind_of_class (.inl hclass)
    obtain ⟨hnew, hold⟩ := group_of_policy hpolicy
    by_cases hkind : (eventKind item.event).value = kindGroupCreateGroup
    · refine .inl ⟨?_, hnew hkind⟩
      obtain ⟨projection', happly⟩ := htakes
      obtain ⟨action, haction, _, _⟩ := applyItem_eq_ok.mp happly
      obtain ⟨eventClass, hfound, hread⟩ := Except.bind_eq_ok.mp haction
      cases hclass.symm.trans hfound
      rw [eventKind_value] at hkind
      simp only [classAction, moderationAction, hkind] at hread
      obtain ⟨metadata, _, rfl⟩ := Except.map_eq_ok.mp hread
      exact ⟨metadata, haction⟩
    · exact .inr ⟨fun hcreates => hkind (hcreate hcreates).2, hold hkind⟩

/-- A generated event that is of a group is of the group of its record. -/
theorem group_of_generated {event source : PocketEvent} {record : GroupOutboxRecord}
    {limits : GroupLimitsConfig} {groupId : GroupId} {offset : StoreOffset}
    (hplanned : PlannedFor relay.pocket source record)
    (hgenerates : RelayGenerates relay sources record.payload event)
    (hof : OfGroup limits groupId ⟨event, offset⟩) : groupId = record.key.groupId := by
  obtain ⟨_, _, _, _, _, _, records, hnamed, _, hplan, planned, hmem, hkey, hpayload⟩ := hplanned
  obtain ⟨builder, _, hsecret, hsign⟩ := hgenerates
  obtain ⟨eventClass, hclass, hgroup⟩ := hof
  have hnames := (owed_of_plan hplan hmem).namesGroup hnamed.group
  rw [hkey, hpayload] at hnames
  exact hnames.groupId_of_class (event_of_sign relay.lawful hsecret hsign).2.2.2 hclass hgroup

section
variable {state state' merged : GroupServiceState} {store store' mergedStore : PocketStore}
  {event : PocketEvent} {eventClass : GroupEventClass} {groupId : GroupId} {before : Option Bool}
  {projection : GroupProjection} {rows : BTreeMap Text ExtraValue}
  {records : List GroupOutboxRecord}

/-- What a write generates is planned for a stored event, in a record of the group. -/
theorem GroupServiceState.Wrote.generates (h : Serves relay sources must state store)
    (hwrote : GroupServiceState.Wrote relay sources must event eventClass before groupId projection
      rows records state merged state' store mergedStore store')
    (hclass : classifyGroupEvent event state.limits = .ok eventClass) {item : StoredEvent}
    (hitem : GroupServiceState.GeneratedFor relay state.builder
      (merged.outbox.replayPlanForGroup groupId) item) :
    ∃ source record, PlannedFor relay.pocket source record ∧ record.key.groupId = groupId ∧
      RelayGenerates relay sources record.payload item.event := by
  obtain ⟨record, hrecord, hsign⟩ := hitem
  obtain ⟨hget, _, hsame⟩ := (GroupServiceState.mem_plan_iff hwrote.generated.keyed).mp hrecord
  have hgenerates : RelayGenerates relay sources record.payload item.event :=
    ⟨state.builder, h.known, h.signer, hsign⟩
  rcases hwrote.generated.merge.only _ _ hget with hbefore | hplanned
  · obtain ⟨source, _, hplanned⟩ := (h.records _ _ hbefore).planned
    exact ⟨source.event, record, hplanned, beq_iff_eq.mp hsame, hgenerates⟩
  · have hnamed := h.covers.named.applyItem hwrote.takes
    exact ⟨event, record, ⟨_, eventClass, projection, _, _, before, records, hnamed, hclass,
      hwrote.generated.planned, record, hplanned, rfl, rfl⟩, beq_iff_eq.mp hsame, hgenerates⟩

end

/-! ## Runs of writes -/

/-- The relay is started and takes events. -/
def Relay.OnlyWrites (_ : World) (happening : Happening) (_ : World) : Prop :=
  match happening with
  | .started _ _ | .submitted _ _ (.ok _) => True
  | .stopped | .startStopped _ _ | .submitted _ _ (.error _) | .submitStopped _ _ => False

/-- Writes are orderly, and none fails. -/
theorem Relay.OnlyWrites.orderly {w w' : World} {happening : Happening}
    (h : Relay.OnlyWrites w happening w') : relay.Orderly w happening w' ∧
      ((fun _ => True) = Deletion ∨
        ∀ event auth error, happening ≠ .submitted event auth (.error error)) := by
  refine ⟨fun config now heq => ?_, .inr fun event auth error heq => ?_⟩
  · subst heq
    exact h.elim
  · subst heq
    exact h.elim

/-- What the service has taken: the stored events as they arrived, where each group was created
before its other events. -/
structure Follows (state : GroupServiceState) (store : PocketStore) : Prop where
  founded : Founded state.limits store.events
  arrived : ∃ projection, applyItems state.limits .new store.events = .ok projection ∧
    projection.groups = state.projection.groups

namespace Follows

variable {state state' : GroupServiceState} {store store' : PocketStore}

/-- The service has taken the events that a step has stored. -/
theorem taken {P : StoredEvent → Prop} (h : Follows state store)
    (hserved : Served relay sources must P state store state' store')
    (hfounded : Founded state.limits store'.events) : Follows state' store' where
  founded := hserved.continues.limits ▸ hfounded
  arrived := by
    obtain ⟨items, hevents, happly, _⟩ := hserved.applied
    obtain ⟨projection, harrived, hgroups⟩ := h.arrived
    obtain ⟨projection', hitems, hgroups'⟩ := groups_applyItems happly hgroups
    refine ⟨projection', ?_, hgroups'⟩
    unfold applyItems at harrived hitems ⊢
    rw [hserved.continues.limits, hevents, List.foldlM_append, harrived]
    exact hitems

/-- The groups of the service are those of the events it has taken. -/
theorem group_eq (h : Follows state store) : ∃ projection,
    applyItems state.limits .new store.events = .ok projection ∧
      ∀ groupId, projection.group groupId = state.projection.group groupId := by
  obtain ⟨projection, harrived, hgroups⟩ := h.arrived
  exact ⟨projection, harrived, fun groupId => congrArg (·[groupId]?) hgroups⟩

/-- A step that took an event. -/
theorem submitted {event : PocketEvent} (h : Follows state store)
    (hserves : Serves relay sources must state store)
    (hsubmitted : Submitted relay sources must event state store state' store') :
    Follows state' store' := by
  have hserved := hsubmitted.served hserves
  have hordered := hserved.serves.sound.arrived.ordered
  obtain ⟨before, harrived, hgroup⟩ := h.group_eq
  cases hsubmitted with
  | unchanged => exact h
  | plain hclass _ hevents =>
    rw [hevents] at hordered
    refine h.taken hserved
      (hevents ▸ h.founded.append_other hordered fun other hother groupId => ?_)
    rintro ⟨eventClass, hfound, hgroup⟩
    cases List.mem_singleton.mp hother
    cases hclass.symm.trans hfound
    cases hgroup
  | @wrote eventClass _ groupId _ _ _ _ _ _ _ hclass hgroupId hnotSnapshot hwrote =>
    obtain ⟨items, hevents, _, hitems⟩ := hwrote.generated.served.applied
    rw [List.append_assoc, List.singleton_append] at hevents
    rw [hevents] at hordered
    have hgenerated : ∀ other ∈ items, ∃ source record, PlannedFor relay.pocket source record ∧
        record.key.groupId = groupId ∧ RelayGenerates relay sources record.payload other.event :=
      fun other hother => hwrote.generates hserves hclass (hitems other hother)
    have hof : OfGroup state.limits groupId ⟨event, relay.db.nextOffset store.events⟩ :=
      ⟨eventClass, hclass, hgroupId⟩
    refine h.taken hserved (hevents ▸ h.founded.append_group harrived hordered hof
      (fun other hother groupId' hof => ?_) (fun other hother hcreates => ?_) ?_)
    · obtain ⟨source, record, hplanned, hsame, hgenerates⟩ := hgenerated other hother
      exact (group_of_generated hplanned hgenerates hof).trans hsame
    · obtain ⟨source, record, hplanned, _, hgenerates⟩ := hgenerated other hother
      exact not_moderates_of_generated hplanned hgenerates (.head _) hcreates.moderates
    · rw [hgroup]
      obtain ⟨auth, hpolicy⟩ := hwrote.accepted
      exact creates_or_present hclass hgroupId hnotSnapshot hpolicy ⟨_, hwrote.takes⟩

/-- A service that has just been started on an empty store. -/
theorem started {config : GroupRuntimeConfig}
    (h : Started relay sources config .empty state store) : Follows state store := by
  obtain ⟨signer, storage, loaded, _, hloaded, hfinished⟩ := h.setup
  have hempty : loaded.events = [] := hloaded.events
  have hgroups : GroupProjection.new.groups = storage.projection.groups := by
    refine BTreeMap.ext fun groupId => ?_
    rw [GroupProjection.new, BTreeMap.getElem?_empty]
    cases hgroup : storage.projection.group groupId with
    | none => exact hgroup.symm
    | some group =>
      obtain ⟨setter, hsetter, _⟩ := (hloaded.projection.groups groupId group hgroup).written
      cases hsetter
  have hnone : store.events = [] := by
    obtain ⟨items, hevents, _, hitems⟩ := hfinished.served.applied
    rw [hevents, hempty, List.nil_append, List.eq_nil_iff_forall_not_mem]
    intro item hitem
    obtain ⟨_, source, hsource, _⟩ := hitems item hitem
    rw [hempty] at hsource
    cases hsource
  have hfounded : ∀ limits, Founded limits [] := fun _ _ _ hitem => absurd hitem List.not_mem_nil
  have hbefore : Follows (GroupServiceState.ofStorage config signer storage) loaded :=
    ⟨hempty ▸ hfounded _, .new, hempty ▸ rfl, hgroups⟩
  exact hbefore.taken hfinished.served (hnone ▸ hfounded _)

end Follows

/-- A service that is up has taken what was stored. -/
def World.Follows : World → Prop
  | .down store => store = .empty
  | .up none _ => True
  | .up (some state) store => Tangle.Follows state store

/-- **A run of writes.** Wherever writes lead, the service has taken what was stored. -/
theorem Relay.Leads.follows {w : World}
    (h : relay.Leads Relay.OnlyWrites (.down .empty) w) : w.Follows := by
  induction h with
  | refl => rfl
  | @tail w w' hrun hlast ih =>
    obtain ⟨happening, hstep, honly⟩ := hlast
    have hkept := Relay.Leads.kept .all Relay.OnlyWrites.orderly hrun
    cases hstep with
    | started hstart =>
      obtain rfl : _ = PocketStore.empty := ih
      have hsound : PocketStore.Sound relay ⟨fun _ => False, fun _ => True⟩ .empty := .empty
      rcases (wp_start hsound fun _ _ => trivial).exec hstart with ⟨rfl, _⟩ | ⟨state, rfl, hstarted⟩
      · trivial
      · exact Follows.started hstarted
    | startStopped hstop => exact honly.elim
    | @submitted event auth groups store result groups' store' hfits hsubmit =>
      cases result with
      | error error => exact honly.elim
      | ok write =>
        cases groups with
        | none =>
          obtain ⟨rfl, _⟩ := (wp_submit_none hkept).exec hsubmit
          trivial
        | some state =>
          have hserves : Serves relay ⟨fun _ => True, _⟩ _ state store :=
            Serves.within hkept ⟨fun _ _ => trivial, fun _ hsigner => hsigner⟩
          obtain ⟨state', rfl, hsubmitted⟩ := (wp_submit_cases .all hserves
            fun _ _ _ => trivial).exec hsubmit
          exact Follows.submitted ih hserves hsubmitted
    | submitStopped hfits hstop => exact honly.elim
    | stopped => exact honly.elim

/-- **When the recorded ids converge.** After any run of writes, a rebuild from the stored events
succeeds, and every group has the greatest snapshots recorded, by the service and by the rebuild,
exactly when the stored snapshots are in order. -/
theorem snapshotIds_converge_iff {state : GroupServiceState} {store : PocketStore}
    (hdb : relay.db.Faithful) (now : UnixTimestamp)
    (hrun : relay.Leads Relay.OnlyWrites (.down .empty) (.up (some state) store)) :
    ∃ report, rebuildGroupProjection store.events state.limits now = .ok report ∧
      ((RecordsGreatest state.limits store.events state.projection ∧
        RecordsGreatest state.limits store.events report.projection) ↔
          SnapshotsInOrder state.limits store.events) := by
  have hserves : Serves relay _ (fun _ => True) state store :=
    Relay.Leads.kept .all Relay.OnlyWrites.orderly hrun
  have hfollows : Follows state store := Relay.Leads.follows hrun
  have hordered := hserves.sound.arrived.ordered
  obtain ⟨live, harrived, hlive⟩ := hfollows.group_eq
  obtain ⟨rebuilt, hrebuilt⟩ := applyItems_sortByTuple_succeeds harrived hordered hfollows.founded
  have hprojection := @rebuildGroupProjection_projection store.events state.limits now
  rw [hrebuilt] at hprojection
  obtain ⟨report, hreport, heq⟩ := Except.map_eq_ok.mp hprojection
  refine ⟨report, hreport, ?_⟩
  have hsame : ∀ {a b : GroupProjection}, (∀ groupId, a.group groupId = b.group groupId) →
      (RecordsGreatest state.limits store.events a ↔
        RecordsGreatest state.limits store.events b) := by
    intro a b h
    simp only [RecordsGreatest, h]
  rw [← hsame hlive, ← recordsGreatest_iff harrived hrebuilt hordered (hserves.sound.ids hdb)
    hfollows.founded]
  exact and_congr_right fun _ => hsame fun groupId => by rw [heq]; rfl

end

/-! ## A create with a greater id than its snapshot -/

namespace Sample

/-- An owner makes a group, in an event whose id is the greatest of all. -/
def createLast : PocketEvent :=
  .ofTexts (.repeated 'f' (Eq.refl true)) owner 9007 10 [["h".toList, "farm".toList]]

def farmCreatedLast : List ScriptLine :=
  [.start config 100, .submit createLast (authAs owner)]

/-- Whether a happening is a start or an event that was taken. -/
def onlyWrites (_ : World) : Happening → Bool
  | .started _ _ | .submitted _ _ (.ok _) => true
  | .stopped | .startStopped _ _ | .submitted _ _ (.error _) | .submitStopped _ _ => false

theorem of_onlyWrites {w w' : World} {happening : Happening} (h : onlyWrites w happening = true) :
    Relay.OnlyWrites w happening w' := by
  unfold onlyWrites at h
  split at h
  · trivial
  · trivial
  all_goals cases h

/-- The metadata of the group are kind 39000. -/
def metadataKind : Kind :=
  kindOf 39000

/-- Whether a rebuild leaves the group with no metadata snapshot recorded. -/
def rebuildForgets (state : GroupServiceState) (store : PocketStore) : Bool :=
  match rebuildGroupProjection store.events state.limits 100 with
  | .ok report => (report.projection.group farm).any fun group =>
    (group.snapshots.forKind metadataKind).isNone
  | .error _ => false

end Sample

section
open Sample

/-- The theorem at a run of one write, which creates a group: the rebuild succeeds, and whether it
records what the service has recorded depends on the order of the stored snapshots. -/
theorem snapshotIds_converge_iff_farm : ∃ state store,
    relay.Leads Relay.OnlyWrites (.down .empty) (.up (some state) store) ∧
      ∃ report, rebuildGroupProjection store.events state.limits 100 = .ok report ∧
        ((RecordsGreatest state.limits store.events state.projection ∧
          RecordsGreatest state.limits store.events report.projection) ↔
            SnapshotsInOrder state.limits store.events) := by
  have hscript : relay.ScriptEnds onlyWrites ([] ++ farmCreatedLast) fun _ _ => True := by
    decide +kernel
  obtain ⟨w, state, store, hempty, hbefore, hmore, _⟩ := hscript.leads of_onlyWrites
  have hrun := hbefore.trans hmore
  exact ⟨state, store, hrun, snapshotIds_converge_iff plainDb_faithful 100 hrun⟩

/-- A snapshot of a group's metadata has the second of the create that it follows, and an id that
sorts before the create's. A rebuild takes the create behind the snapshot, and makes the group
without the snapshot's id. -/
theorem snapshotIds_forgotten : ∃ state store report,
    relay.Leads Relay.OnlyWrites (.down .empty) (.up (some state) store) ∧
      rebuildGroupProjection store.events state.limits 100 = .ok report ∧
      ¬RecordsGreatest state.limits store.events report.projection := by
  have hscript : relay.ScriptEnds onlyWrites ([] ++ farmCreatedLast) fun state store =>
      (∃ item ∈ store.events, classifyGroupEvent item.event state.limits =
        .ok (.relayGeneratedSnapshot metadataKind farm) ∧ metadataKind.value = kindU32 item.event) ∧
      rebuildForgets state store = true := by
    decide +kernel
  obtain ⟨w, state, store, hempty, hbefore, hmore, ⟨item, hitem, hsnapshot⟩, hforgets⟩ :=
    hscript.leads of_onlyWrites
  unfold rebuildForgets at hforgets
  split at hforgets
  · next report hreport =>
    refine ⟨state, store, report, hbefore.trans hmore, hreport, fun hrecords => ?_⟩
    obtain ⟨greatest, hgreatest⟩ := exists_greatestSnapshot hitem hsnapshot
    cases hgroup : report.projection.group farm with
    | none =>
      rw [hgroup] at hforgets
      cases hforgets
    | some group =>
      have hrecorded := (hrecords farm group hgroup metadataKind _).mpr ⟨greatest, hgreatest, rfl⟩
      rw [hgroup, Option.any_some, hrecorded] at hforgets
      cases hforgets
  · cases hforgets

end

end Tangle
