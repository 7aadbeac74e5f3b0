import Tangle.Runtime.Rows

/-!
# The outbox and its rows

The outbox table holds one row for each record, under the storage key of the record's name. The
parts of a storage key hold no NUL, so records of different names have different rows, and what a
start reads back is the outbox the rows are those of (`load_of_holdsRecords`).
-/

namespace Tangle

/-- The parts of a storage key are read off its text. -/
theorem GroupOutboxKey.splitNul_storageKey (key : GroupOutboxKey) : splitNul key.storageKey =
    [key.sourceEventId.text, key.effect.asStr.toList, key.groupId.text,
      key.targetPubkey.elim [] Hex64.text] := by
  have heffect : ∀ effect : GroupOutboxEffect, '\x00' ∉ effect.asStr.toList := by
    intro effect
    cases effect <;> decide
  have htarget : '\x00' ∉ (key.targetPubkey.elim [] Hex64.text : Text) := by
    cases key.targetPubkey with
    | none => exact List.not_mem_nil
    | some pubkey => exact ProjectionKey.nul_not_mem_hex pubkey
  have hassoc : key.storageKey = key.sourceEventId.text ++ '\x00' :: (key.effect.asStr.toList ++
      '\x00' :: (key.groupId.text ++ '\x00' :: key.targetPubkey.elim [] Hex64.text)) := by
    simp [GroupOutboxKey.storageKey]
  rw [hassoc, splitNul_append (ProjectionKey.nul_not_mem_hex _), splitNul_append (heffect _),
    splitNul_append key.groupId.nul_not_mem, splitNul_of_not_mem htarget]

/-- Records of different names have different rows. -/
theorem GroupOutboxKey.storageKey_injective : Function.Injective GroupOutboxKey.storageKey := by
  intro a b h
  have hparts :=
    (a.splitNul_storageKey.symm.trans (congrArg splitNul h)).trans b.splitNul_storageKey
  simp only [List.cons.injEq, and_true] at hparts
  obtain ⟨hsource, heffect, hgroup, htarget⟩ := hparts
  obtain ⟨source, effect, groupId, target⟩ := a
  obtain ⟨source', effect', groupId', target'⟩ := b
  obtain rfl := Hex64.text_injective hsource
  obtain rfl := GroupId.text_injective hgroup
  have hlabel : GroupOutboxEffect.fromLabel effect.asStr =
      GroupOutboxEffect.fromLabel effect'.asStr := congrArg _ (String.toList_injective heffect)
  rw [GroupOutboxEffect.fromLabel_asStr, GroupOutboxEffect.fromLabel_asStr] at hlabel
  cases hlabel
  -- a key is not empty, so no target differs from every target
  have hne : ∀ pubkey : PublicKeyHex, pubkey.text ≠ [] := by
    intro pubkey hempty
    have hlength := pubkey.isHex.1
    rw [hempty] at hlength
    cases hlength
  cases target with
  | none =>
    cases target' with
    | none => rfl
    | some pubkey' => exact absurd htarget.symm (hne pubkey')
  | some pubkey =>
    cases target' with
    | none => exact absurd htarget (hne pubkey)
    | some pubkey' => rw [Hex64.text_injective htarget]

/-- Every record stands under its own key. -/
def GroupOutbox.Keyed (outbox : GroupOutbox) : Prop :=
  ∀ key record, outbox.get key = some record → record.key = key

/-- The rows are those of the outbox's records. -/
structure HoldsRecords (outbox : GroupOutbox) (rows : BTreeMap Text ExtraValue) : Prop where
  keyed : outbox.Keyed
  lookup : ∀ key : GroupOutboxKey,
    rows[key.storageKey]? = (outbox.get key).map GroupOutboxRecord.toJsonBytes
  named : ∀ (text : Text) (value : ExtraValue), rows[text]? = some value →
    ∃ key : GroupOutboxKey, key.storageKey = text

namespace HoldsRecords

variable {outbox : GroupOutbox} {rows : BTreeMap Text ExtraValue}

theorem empty : HoldsRecords .new ∅ where
  keyed key record h := by simp [GroupOutbox.new, GroupOutbox.get] at h
  lookup key := by simp [GroupOutbox.new, GroupOutbox.get]
  named text value h := by simp at h

/-- A record and its row are replaced together. -/
theorem update (h : HoldsRecords outbox rows) (record : GroupOutboxRecord) :
    HoldsRecords (outbox.update record) (rows.insert record.key.storageKey record.toJsonBytes) where
  keyed key found hfound := by
    rw [GroupOutbox.get_update] at hfound
    split at hfound
    · next heq => cases hfound; exact heq
    · exact h.keyed key found hfound
  lookup key := by
    rw [BTreeMap.getElem?_insert, GroupOutbox.get_update]
    simp only [GroupOutboxKey.storageKey_injective.eq_iff]
    split
    · rfl
    · exact h.lookup key
  named text value hrow := by
    rw [BTreeMap.getElem?_insert] at hrow
    split at hrow
    · next heq => exact ⟨record.key, heq⟩
    · exact h.named text value hrow

/-- A row of the table is that of a record. -/
theorem mem_toList (h : HoldsRecords outbox rows) {row : Text × ExtraValue}
    (hrow : row ∈ rows.toList) : ∃ record, outbox.get record.key = some record ∧
      row = (record.key.storageKey, record.toJsonBytes) := by
  obtain ⟨text, value⟩ := row
  have hlookup := BTreeMap.mem_toList.mp hrow
  obtain ⟨key, rfl⟩ := h.named text value hlookup
  obtain ⟨record, hrecord, rfl⟩ := Option.map_eq_some_iff.mp ((h.lookup key).symm.trans hlookup)
  obtain rfl := h.keyed key record hrecord
  exact ⟨record, hrecord, rfl⟩

/-- Reading rows puts their records into the outbox, one by one. -/
theorem get_foldlM (h : HoldsRecords outbox rows) {records : List (Text × ExtraValue)}
    (hrecords : ∀ row ∈ records, row ∈ rows.toList) {start loaded : GroupOutbox}
    (hload : records.foldlM (fun outbox record => do
      return outbox.update (← (GroupOutboxRecord.fromJsonBytes record.2).mapError
        BaseRelayError.ofGroup)) start = .ok loaded) (key : GroupOutboxKey) :
    loaded.get key = if key.storageKey ∈ records.map Prod.fst then outbox.get key
      else start.get key := by
  induction records generalizing start with
  | nil => cases hload; simp
  | cons row rest ih =>
    obtain ⟨next, hnext, hrest⟩ := Except.foldlM_cons_ok.mp hload
    obtain ⟨read, hread, hnext⟩ := Except.bind_eq_ok.mp hnext
    cases hnext
    obtain ⟨record, hrecord, rfl⟩ := h.mem_toList (hrecords row (List.mem_cons_self ..))
    obtain ⟨rfl, _⟩ := GroupOutboxRecord.fromJsonBytes_toJsonBytes_eq_ok.mp
      (Except.mapError_eq_ok.mp hread)
    rw [ih (fun row hrow => hrecords row (List.mem_cons_of_mem _ hrow)) hrest,
      GroupOutbox.get_update]
    simp only [List.map_cons, List.mem_cons, GroupOutboxKey.storageKey_injective.eq_iff]
    by_cases hkey : key = read.key
    · subst hkey
      simp [hrecord]
    · simp only [hkey, Ne.symm hkey, false_or, if_false]

end HoldsRecords

/-- What is read back is the outbox the rows are those of. -/
theorem load_of_holdsRecords {outbox loaded : GroupOutbox} {rows : BTreeMap Text ExtraValue}
    (h : HoldsRecords outbox rows) (hload : loadGroupOutbox rows.toList = .ok loaded) :
    loaded = outbox := by
  refine GroupOutbox.ext fun key => ?_
  rw [h.get_foldlM (fun _ hrow => hrow) hload]
  split
  · rfl
  · next hnot =>
    -- a record that was not read has no row
    cases hget : outbox.get key with
    | none => simp [GroupOutbox.new, GroupOutbox.get]
    | some record =>
      have hlookup := h.lookup key
      rw [hget] at hlookup
      exact absurd (List.mem_map.mpr ⟨_, BTreeMap.mem_toList.mpr hlookup, rfl⟩) hnot

/-- Loading succeeds when the group ids of the records are short. -/
theorem loads_of_holdsRecords {outbox : GroupOutbox} {rows : BTreeMap Text ExtraValue}
    (h : HoldsRecords outbox rows) (hshort : ∀ key record, outbox.get key = some record →
      record.key.groupId.text.byteLen ≤ maxGroupIdBytes) :
    loadGroupOutbox rows.toList = .ok outbox := by
  have hsucceeds : (loadGroupOutbox rows.toList).Succeeds := by
    obtain ⟨loaded, hloaded, _⟩ := @Except.foldlM_succeeds _ _ _
      (fun (outbox : GroupOutbox) (row : Text × ExtraValue) => do
        return outbox.update (← (GroupOutboxRecord.fromJsonBytes row.2).mapError
          BaseRelayError.ofGroup)) (fun _ => True) rows.toList .new (fun loaded row hrow _ => by
      obtain ⟨record, hrecord, rfl⟩ := h.mem_toList hrow
      rw [GroupOutboxRecord.fromJsonBytes_toJsonBytes (hshort _ record hrecord)]
      exact ⟨_, rfl, trivial⟩) trivial
    exact ⟨loaded, hloaded⟩
  obtain ⟨loaded, hloaded⟩ := hsucceeds
  rw [hloaded, load_of_holdsRecords h hloaded]

end Tangle
