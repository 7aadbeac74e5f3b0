import Tangle.Groups.ProjectionStep

/-!
# The last-writer-wins maps of the projection

Members, tombstones and event deletions are kept by one rule, so what is true of one of them is
proved of a `WriteField`: a map of the projection, the entry an event writes to it, and the fact
that applying the event writes that entry and no other. The map then has seen exactly the writes of
the events applied (`WriteField.covers`), in whatever order they came and however often.
-/

namespace Tangle

/-- A map of the projection to which an event writes one entry at most. -/
structure WriteField (κ ν : Type) [LinearOrder κ] where
  get : GroupProjection → BTreeMap κ ν
  stamp : ν → ProjectionOrderTuple
  write : GroupLimitsConfig → CanonicalGroupEvent → Option (κ × ν)
  /-- An entry carries the tuple of the event that wrote it. -/
  stamp_write : ∀ {limits item k v}, write limits item = some (k, v) → stamp v = item.tuple
  /-- Applying an event writes its entry. -/
  applyItem : ∀ {limits projection item projection'},
    applyItem limits projection item = .ok projection' →
      get projection' = (write limits item).elim (get projection) fun w =>
        Lww.put stamp (get projection) w.1 w.2

/-- An event that applies has an action, and the projection is the one after it. -/
theorem applyItem_eq_ok {limits : GroupLimitsConfig} {projection projection' : GroupProjection}
    {item : CanonicalGroupEvent} :
    applyItem limits projection item = .ok projection' ↔
      ∃ action, eventAction item.event limits = .ok action ∧
        action.performError projection = none ∧ action.after item projection = projection' := by
  rw [applyItem_eq, Except.bind_eq_ok]
  refine exists_congr fun action => and_congr_right fun _ => ?_
  unfold ProjectionAction.perform
  cases action.performError projection with
  | none => simp
  | some error => simp

/-- The entry an event writes, by its action. -/
def actionWrite {κ ν : Type} (write : CanonicalGroupEvent → ProjectionAction → Option (κ × ν))
    (limits : GroupLimitsConfig) (item : CanonicalGroupEvent) : Option (κ × ν) :=
  (eventAction item.event limits).toOption.bind (write item)

/-- An entry that was written was written by an action. -/
theorem actionWrite_eq_some {κ ν : Type}
    {write : CanonicalGroupEvent → ProjectionAction → Option (κ × ν)} {limits : GroupLimitsConfig}
    {item : CanonicalGroupEvent} {k : κ} {v : ν} :
    actionWrite write limits item = some (k, v) ↔
      ∃ action, eventAction item.event limits = .ok action ∧ write item action = some (k, v) := by
  unfold actionWrite
  cases eventAction item.event limits with
  | error e => simp [Except.toOption]
  | ok action => simp [Except.toOption]

theorem actionWrite_of_action {κ ν : Type}
    {write : CanonicalGroupEvent → ProjectionAction → Option (κ × ν)} {limits : GroupLimitsConfig}
    {item : CanonicalGroupEvent} {action : ProjectionAction}
    (h : eventAction item.event limits = .ok action) :
    actionWrite write limits item = write item action := by
  simp [actionWrite, h, Except.toOption]

/-- Members by group and key. -/
def memberField : WriteField (GroupId ×ₗ PublicKeyHex) MemberState where
  get := GroupProjection.members
  stamp := MemberState.lastTuple
  write := actionWrite fun item action => action.memberWrite item
  stamp_write := by
    intro limits item k v h
    obtain ⟨action, _, hwrite⟩ := actionWrite_eq_some.mp h
    cases action with
    | setMember groupId pubkey status roles => cases hwrite; rfl
    | _ => cases hwrite
  applyItem := by
    intro limits projection item projection' h
    obtain ⟨action, haction, _, rfl⟩ := applyItem_eq_ok.mp h
    rw [actionWrite_of_action haction]
    rfl

/-- Tombstones by group. -/
def tombstoneField : WriteField GroupId GroupTombstone where
  get := GroupProjection.tombstones
  stamp := GroupTombstone.lastTuple
  write := actionWrite fun item action => action.tombstoneWrite item
  stamp_write := by
    intro limits item k v h
    obtain ⟨action, _, hwrite⟩ := actionWrite_eq_some.mp h
    cases action with
    | deleteGroup groupId => cases hwrite; rfl
    | _ => cases hwrite
  applyItem := by
    intro limits projection item projection' h
    obtain ⟨action, haction, _, rfl⟩ := applyItem_eq_ok.mp h
    rw [actionWrite_of_action haction]
    rfl

/-- Event deletions by the event deleted. -/
def deletionField : WriteField EventId GroupEventDeletion where
  get := GroupProjection.eventDeletions
  stamp := GroupEventDeletion.lastTuple
  write := actionWrite fun item action => action.deletionWrite item
  stamp_write := by
    intro limits item k v h
    obtain ⟨action, _, hwrite⟩ := actionWrite_eq_some.mp h
    cases action with
    | deleteEvent groupId target => cases hwrite; rfl
    | _ => cases hwrite
  applyItem := by
    intro limits projection item projection' h
    obtain ⟨action, haction, _, rfl⟩ := applyItem_eq_ok.mp h
    rw [actionWrite_of_action haction]
    rfl

section
variable {limits : GroupLimitsConfig} {item : CanonicalGroupEvent}

/-- A member is written by an event that sets it. -/
theorem memberField_write {k : GroupId ×ₗ PublicKeyHex} {v : MemberState}
    (h : memberField.write limits item = some (k, v)) : ∃ groupId pubkey status roles,
      eventAction item.event limits = .ok (.setMember groupId pubkey status roles) ∧
        k = toLex (groupId, pubkey) ∧ v = ⟨pubkey, status, roles, item.event.id, item.tuple⟩ := by
  obtain ⟨action, haction, hwrite⟩ :=
    (@actionWrite_eq_some _ _ (fun item action => action.memberWrite item) _ _ _ _).mp h
  cases action with
  | setMember groupId pubkey status roles =>
    cases hwrite
    exact ⟨groupId, pubkey, status, roles, haction, rfl, rfl⟩
  | _ => cases hwrite

/-- A tombstone is written by an event that deletes the group. -/
theorem tombstoneField_write {k : GroupId} {v : GroupTombstone}
    (h : tombstoneField.write limits item = some (k, v)) :
    eventAction item.event limits = .ok (.deleteGroup k) ∧
      v = ⟨k, item.event.id, item.event.createdAt, item.event.pubkey, item.tuple⟩ := by
  obtain ⟨action, haction, hwrite⟩ :=
    (@actionWrite_eq_some _ _ (fun item action => action.tombstoneWrite item) _ _ _ _).mp h
  cases action with
  | deleteGroup groupId => cases hwrite; exact ⟨haction, rfl⟩
  | _ => cases hwrite

/-- A deletion is written by an event that deletes the event. -/
theorem deletionField_write {k : EventId} {v : GroupEventDeletion}
    (h : deletionField.write limits item = some (k, v)) : ∃ groupId,
      eventAction item.event limits = .ok (.deleteEvent groupId k) ∧
        v = ⟨groupId, k, item.event.id, item.event.createdAt, item.event.pubkey, item.tuple⟩ := by
  obtain ⟨action, haction, hwrite⟩ :=
    (@actionWrite_eq_some _ _ (fun item action => action.deletionWrite item) _ _ _ _).mp h
  cases action with
  | deleteEvent groupId target => cases hwrite; exact ⟨groupId, haction, rfl⟩
  | _ => cases hwrite

end

namespace WriteField

variable {κ ν : Type} [LinearOrder κ] (field : WriteField κ ν) (limits : GroupLimitsConfig)
  {items items' : List CanonicalGroupEvent} {p p' : GroupProjection}

/-- What the events of a set write. -/
def Writes (L : CanonicalGroupEvent → Prop) (k : κ) (v : ν) : Prop :=
  ∃ item, L item ∧ field.write limits item = some (k, v)

/-- Applying events is a run of writes. -/
theorem applyItems (h : applyItems limits p items = .ok p') :
    field.get p' = Lww.puts field.stamp (field.get p) (items.map (field.write limits)) := by
  induction items generalizing p with
  | nil => cases h; rfl
  | cons item rest ih =>
    obtain ⟨q, hq, hrest⟩ := Except.foldlM_cons_ok.mp h
    rw [ih hrest, field.applyItem hq]
    rfl

/-- Applying events adds what they write to what the map has seen. -/
theorem covers {L₀ L : CanonicalGroupEvent → Prop}
    (hp : Lww.Covers field.stamp (field.Writes limits L₀) (field.Writes limits L) (field.get p))
    (h : Tangle.applyItems limits p items = .ok p') :
    Lww.Covers field.stamp (field.Writes limits fun item => L₀ item ∨ item ∈ items)
      (field.Writes limits fun item => L item ∨ item ∈ items) (field.get p') := by
  have hwrites : ∀ (L : CanonicalGroupEvent → Prop) k v,
      field.Writes limits L k v ∨ some (k, v) ∈ items.map (field.write limits) ↔
        field.Writes limits (fun item => L item ∨ item ∈ items) k v := by
    intro L k v
    simp only [Writes, List.mem_map, or_and_right, exists_or]
  rw [field.applyItems limits h]
  exact (hp.puts _).congr (hwrites L₀) (hwrites L)

/-- A map built from nothing reflects the events applied. -/
theorem reflects_new (hnew : field.get .new = ∅)
    (h : Tangle.applyItems limits .new items = .ok p) :
    Lww.Reflects field.stamp (field.Writes limits (· ∈ items)) (field.get p) := by
  have hempty : Lww.Reflects field.stamp (field.Writes limits fun _ => False) (field.get .new) := by
    rw [hnew]
    exact Lww.Reflects.empty.congr (fun k v => by simp [Writes]) fun k v => by simp [Writes]
  exact (field.covers limits hempty h).congr (fun k v => by simp [Writes])
    fun k v => by simp [Writes]

/-- Tuples tell the writes apart when they tell the events apart. -/
theorem told {L : CanonicalGroupEvent → Prop}
    (hL : ∀ a b, L a → L b → a.tuple = b.tuple → a = b) :
    Lww.Told field.stamp (field.Writes limits L) := by
  intro k v u ⟨a, ha, hv⟩ ⟨b, hb, hu⟩ hstamp
  rw [field.stamp_write hv, field.stamp_write hu] at hstamp
  obtain rfl := hL a b ha hb hstamp
  have := hv.symm.trans hu
  cases this
  rfl

end WriteField

/-! ## Convergence -/

section
variable {limits : GroupLimitsConfig} {items items' : List CanonicalGroupEvent}

/-- An event whose action no projection makes fail is taken by every projection. -/
theorem applyItem_succeeds {item : CanonicalGroupEvent}
    (h : (eventAction item.event limits).toOption.any ProjectionAction.isTotal = true)
    (q : GroupProjection) : (applyItem limits q item).Succeeds := by
  cases haction : eventAction item.event limits with
  | error e => simp [haction, Except.toOption] at h
  | ok action =>
    have htotal : action.isTotal = true := by simpa [haction, Except.toOption] using h
    exact ⟨_, applyItem_eq_ok.mpr ⟨action, haction,
      ProjectionAction.performError_of_isTotal htotal q, rfl⟩⟩

/-- Events that every projection takes can be applied one after another. -/
theorem applyItems_succeeds {p : GroupProjection}
    (h : ∀ item ∈ items, ∀ q, (applyItem limits q item).Succeeds) :
    (applyItems limits p items).Succeeds := by
  obtain ⟨t, ht, _⟩ := Except.foldlM_succeeds (fun _ => True)
    (fun q item hitem _ => (h item hitem q).imp fun q' hq' => ⟨hq', trivial⟩) trivial
  exact ⟨t, ht⟩

/-- Events told apart by their ids are told apart by their tuples. -/
theorem tuple_injective_of_ids
    (distinct : ∀ a ∈ items, ∀ b ∈ items, a.event.id = b.event.id → a.event = b.event) :
    ∀ a b, a ∈ items → b ∈ items → a.tuple = b.tuple → a = b := by
  intro a b ha hb htuple
  obtain ⟨event, offset⟩ := a
  obtain ⟨event', offset'⟩ := b
  have hid : event.id = event'.id := congrArg ProjectionOrderTuple.eventId htuple
  have hoffset : offset = offset' := congrArg ProjectionOrderTuple.storeOffset htuple
  have hevent : event = event' := distinct _ ha _ hb hid
  rw [hevent, hoffset]

variable {κ ν : Type} [LinearOrder κ] (field : WriteField κ ν)

/-- What a map built from `items` holds: of the events naming a key, the entry of the latest. -/
def HoldsLatest (limits : GroupLimitsConfig) (items : List CanonicalGroupEvent)
    (map : BTreeMap κ ν) : Prop :=
  ∀ k v, map[k]? = some v ↔
    ∃ item ∈ items, field.write limits item = some (k, v) ∧
      ∀ other ∈ items, (∃ u, field.write limits other = some (k, u)) → other.tuple ≤ item.tuple

/-- A map that reflects told-apart writes holds the latest of each key. -/
theorem holdsLatest_of_reflects {map : BTreeMap κ ν}
    (h : Lww.Reflects field.stamp (field.Writes limits (· ∈ items)) map)
    (told : Lww.Told field.stamp (field.Writes limits (· ∈ items))) :
    HoldsLatest field limits items map := by
  intro k v
  rw [Lww.Reflects.getElem?_eq_some h told]
  refine ⟨fun ⟨⟨item, hitem, hwrite⟩, hmax⟩ => ?_, fun ⟨item, hitem, hwrite, hmax⟩ => ?_⟩
  · refine ⟨item, hitem, hwrite, fun other hother ⟨u, hu⟩ => ?_⟩
    have hle := hmax u ⟨other, hother, hu⟩
    rwa [field.stamp_write hwrite, field.stamp_write hu] at hle
  · refine ⟨⟨item, hitem, hwrite⟩, fun u ⟨other, hother, hu⟩ => ?_⟩
    rw [field.stamp_write hwrite, field.stamp_write hu]
    exact hmax other hother ⟨u, hu⟩

/-- One map of two projections built from the same events in two orders. -/
theorem field_converges (hnew : field.get .new = ∅) (perm : items'.Perm items)
    (distinct : ∀ a ∈ items, ∀ b ∈ items, a.event.id = b.event.id → a.event = b.event)
    {p p' : GroupProjection} (hp : applyItems limits .new items = .ok p)
    (hp' : applyItems limits .new items' = .ok p') :
    field.get p' = field.get p ∧ HoldsLatest field limits items (field.get p) ∧
      ∀ again q, (∀ item ∈ again, item ∈ items) → applyItems limits p again = .ok q →
        field.get q = field.get p := by
  have told := field.told limits (tuple_injective_of_ids distinct)
  have href := field.reflects_new limits hnew hp
  have hperm : ∀ k v, field.Writes limits (· ∈ items') k v ↔ field.Writes limits (· ∈ items) k v :=
    fun k v => by simp only [WriteField.Writes, perm.mem_iff]
  have href' : Lww.Reflects field.stamp (field.Writes limits (· ∈ items)) (field.get p') :=
    (field.reflects_new limits hnew hp').congr hperm hperm
  refine ⟨Lww.Reflects.ext href' href told, holdsLatest_of_reflects field href told,
    fun again q hsub hq => ?_⟩
  have hsame : ∀ k v, field.Writes limits (fun item => item ∈ items ∨ item ∈ again) k v ↔
      field.Writes limits (· ∈ items) k v := by
    refine fun k v => exists_congr fun item => and_congr_left fun _ => ?_
    exact ⟨fun h => h.elim id (hsub item), .inl⟩
  exact Lww.Reflects.ext ((field.covers limits href hq).congr hsame hsame) href told

/-- **The last-writer-wins maps converge.** Events that apply in every projection can be applied in
any order, and wherever two orders of the same events both apply, the members, tombstones and event
deletions agree: each entry is the one the event of the greatest tuple carries among the events
naming its key, and applying any of the events again changes none of the maps. -/
theorem projectionMaps_converge (perm : items'.Perm items)
    (distinct : ∀ a ∈ items, ∀ b ∈ items, a.event.id = b.event.id → a.event = b.event) :
    ((∀ item ∈ items, ∀ q, (applyItem limits q item).Succeeds) →
      (applyItems limits .new items).Succeeds ∧ (applyItems limits .new items').Succeeds) ∧
    ∀ p p', applyItems limits .new items = .ok p → applyItems limits .new items' = .ok p' →
      (p'.members = p.members ∧ p'.tombstones = p.tombstones ∧
        p'.eventDeletions = p.eventDeletions) ∧
      (HoldsLatest memberField limits items p.members ∧
        HoldsLatest tombstoneField limits items p.tombstones ∧
        HoldsLatest deletionField limits items p.eventDeletions) ∧
      ∀ again q, (∀ item ∈ again, item ∈ items) → applyItems limits p again = .ok q →
        q.members = p.members ∧ q.tombstones = p.tombstones ∧
          q.eventDeletions = p.eventDeletions := by
  refine ⟨fun happly => ⟨applyItems_succeeds happly, applyItems_succeeds fun item hitem =>
    happly item (perm.mem_iff.mp hitem)⟩, fun p p' hp hp' => ?_⟩
  obtain ⟨hm, hmLatest, hmAgain⟩ := field_converges memberField rfl perm distinct hp hp'
  obtain ⟨ht, htLatest, htAgain⟩ := field_converges tombstoneField rfl perm distinct hp hp'
  obtain ⟨hd, hdLatest, hdAgain⟩ := field_converges deletionField rfl perm distinct hp hp'
  refine ⟨⟨hm, ht, hd⟩, ⟨hmLatest, htLatest, hdLatest⟩, fun again q hsub hq => ?_⟩
  exact ⟨hmAgain again q hsub hq, htAgain again q hsub hq, hdAgain again q hsub hq⟩

/-- A put-user event and the removal that follows it, in both orders. -/
def putThenRemove : List CanonicalGroupEvent :=
  let member : PublicKeyHex := .repeated 'a' (Eq.refl true)
  let owner : PublicKeyHex := .repeated 'b' (Eq.refl true)
  let tags := [["h".toList, "farm".toList], ["p".toList, member.text]]
  [⟨.ofTexts (.repeated '1' (Eq.refl true)) owner 9000 10 tags, 8⟩,
    ⟨.ofTexts (.repeated '2' (Eq.refl true)) owner 9001 20 tags, 16⟩]

/-- The theorem at a member who is added and then removed by a later event: whichever of the two is
applied first, the members are the same in the end. -/
theorem projectionMaps_converge_putThenRemove :
    ∃ p p', applyItems .default .new putThenRemove = .ok p ∧
      applyItems .default .new putThenRemove.reverse = .ok p' ∧ p'.members = p.members := by
  have hconverge := @projectionMaps_converge .default _ _
    (List.reverse_perm putThenRemove) (by decide +kernel)
  obtain ⟨⟨p, hp⟩, p', hp'⟩ := hconverge.1 fun item hitem q => by
    refine applyItem_succeeds ?_ q
    have hall : ∀ item ∈ putThenRemove, (eventAction item.event .default).toOption.any
      ProjectionAction.isTotal = true := by decide +kernel
    exact hall item hitem
  exact ⟨p, p', hp, hp', (hconverge.2 p p' hp hp').1.1⟩

end

end Tangle
