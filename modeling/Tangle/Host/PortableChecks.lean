import Tangle.Host.PortableBackup

/-!
# Verified portable backups

What the verifier accepts (`PortableHost.verify_eq_ok`): a directory with a manifest and a file of
events that has the size, the digest and the count of the manifest, whose lines are read as verified
events at increasing offsets, no two with one id (`PortableHost.WellFormed`). A line is read back as
it was written when the JSON library and Pocket's parser agree on the texts of an event
(`PortableHost.parse_eventLine`).
-/

namespace Tangle

/-! ## Lines -/

/-- The lines of a file that begins with a line are that line and those of the rest. -/
theorem fileLines_append {front bytes : List UInt8} (h : newline ∉ front) :
    fileLines (front ++ newline :: bytes) = (front ++ [newline]) :: fileLines bytes := by
  induction front with
  | nil => rw [List.nil_append, fileLines, if_pos rfl, List.nil_append]
  | cons byte front ih =>
    obtain ⟨hbyte, hfront⟩ := not_or.mp (mt List.mem_cons.mpr h)
    rw [List.cons_append, fileLines, if_neg (Ne.symm hbyte), ih hfront]
    rfl

/-- Lines that are written one after the other are read as they were written. -/
theorem fileLines_flatten {fronts : List (List UInt8)} (h : ∀ front ∈ fronts, newline ∉ front) :
    fileLines (fronts.map (· ++ [newline])).flatten = fronts.map (· ++ [newline]) := by
  induction fronts with
  | nil => rfl
  | cons front fronts ih =>
    rw [List.map_cons, List.flatten_cons, List.append_assoc, List.singleton_append,
      fileLines_append (h front List.mem_cons_self),
      ih fun other hother => h other (List.mem_cons_of_mem _ hother)]

/-- A line read without its newline is what was written before it. -/
theorem withoutNewline_append (front : List UInt8) :
    withoutNewline (front ++ [newline]) = front := by
  rw [withoutNewline, if_pos List.getLast?_concat, List.dropLast_concat]

/-- The newline is a byte of no other character. -/
theorem eq_newline_of_mem {c : Char} (h : newline ∈ String.utf8EncodeChar c) : c = '\n' := by
  have hbyte : ∀ n : Nat, newline = UInt8.ofNat n → n % 256 = 10 := fun n hn =>
    (congrArg UInt8.toNat hn).symm
  have hcode : c.val.toNat = 10 := by
    unfold String.utf8EncodeChar at h
    dsimp only at h
    split at h
    · have := hbyte _ (List.mem_singleton.mp h)
      omega
    · split at h
      · rcases List.mem_pair.mp h with h | h
        · have := hbyte _ h
          omega
        · have := hbyte _ h
          omega
      · split at h
        · simp only [List.mem_cons, List.not_mem_nil, or_false] at h
          rcases h with h | h | h
          all_goals
            have := hbyte _ h
            omega
        · simp only [List.mem_cons, List.not_mem_nil, or_false] at h
          rcases h with h | h | h | h
          all_goals
            have := hbyte _ h
            omega
  exact Char.toNat_inj.mp hcode

/-- A text without a line break has no newline among its bytes. -/
theorem newline_not_mem_toBytes {text : Text} (h : '\n' ∉ text) : newline ∉ text.toBytes := by
  intro hin
  obtain ⟨c, hc, hbyte⟩ := List.mem_flatMap.mp hin
  exact h (eq_newline_of_mem hbyte ▸ hc)

/-! ## What the verifier has seen -/

/-- What the verifier has gathered once it has read these lines. -/
def LineInventory.of (parsed : List ParsedBackupLine) : LineInventory where
  count := parsed.length
  firstStoreOffset := parsed.head?.map ParsedBackupLine.storeOffset
  lastStoreOffset := parsed.getLast?.map ParsedBackupLine.storeOffset
  eventIds := parsed.foldl (fun ids line => ids.insert line.event.id) ∅

/-- The ids gathered are those of the lines read. -/
theorem mem_eventIds {parsed : List ParsedBackupLine} {id : EventId} :
    id ∈ (LineInventory.of parsed).eventIds ↔ id ∈ parsed.map (·.event.id) := by
  have hfold : ∀ (parsed : List ParsedBackupLine) (ids : BTreeSet EventId),
      id ∈ parsed.foldl (fun ids line => ids.insert line.event.id) ids ↔
        id ∈ ids ∨ id ∈ parsed.map (·.event.id) := by
    intro parsed
    induction parsed with
    | nil => intro ids; simp
    | cons line rest ih =>
      intro ids
      rw [List.foldl_cons, ih, BTreeSet.mem_insert, List.map_cons, List.mem_cons, eq_comm]
      exact or_assoc.trans or_left_comm
  have hempty : id ∉ (∅ : BTreeSet EventId) := BTreeSet.not_mem_empty
  rw [LineInventory.of, hfold]
  simp [hempty]

namespace PortableHost

/-- Lines that the verifier accepts together. -/
structure WellFormed (policy : PortableRelayBackupPolicy) (parsed : List ParsedBackupLine) :
    Prop where
  increasing : (parsed.map ParsedBackupLine.storeOffset).Pairwise (· < ·)
  distinct : (parsed.map (·.event.id)).Nodup
  count : parsed.length ≤ policy.maximumEventCount.toNat

/-- A line that is read as a verified event. -/
def ReadsLine (host : PortableHost) (policy : PortableRelayBackupPolicy) (line : List UInt8)
    (parsed : ParsedBackupLine) : Prop :=
  host.parseBackupLine policy line = .ok parsed ∧ (host.verify parsed.event).Succeeds

variable {host : PortableHost} {policy : PortableRelayBackupPolicy} {disk : Disk} {path : OsPath}
  {place : Place} {name : EntryName} {contents : List UInt8}

/-- The lines are well formed with one more exactly when they were and the new one's offset and id
are as they should be. -/
theorem wellFormed_append {parsed : List ParsedBackupLine} {next : ParsedBackupLine} :
    WellFormed policy (parsed ++ [next]) ↔ WellFormed policy parsed ∧
      (∀ offset ∈ (LineInventory.of parsed).lastStoreOffset, offset < next.storeOffset) ∧
      next.event.id ∉ (LineInventory.of parsed).eventIds ∧
      parsed.length + 1 ≤ policy.maximumEventCount.toNat := by
  rw [mem_eventIds]
  constructor
  · intro h
    have hincreasing := h.increasing
    have hdistinct := h.distinct
    have hcount := h.count
    rw [List.map_append, List.pairwise_append] at hincreasing
    rw [List.map_append, List.nodup_append] at hdistinct
    rw [List.length_append, List.length_singleton] at hcount
    refine ⟨⟨hincreasing.1, hdistinct.1, by omega⟩, ?_, ?_, hcount⟩
    · intro offset hoffset
      obtain ⟨last, hlast, rfl⟩ := Option.map_eq_some_iff.mp hoffset
      refine hincreasing.2.2 _ (List.mem_map_of_mem (List.mem_of_getLast? hlast)) _ ?_
      exact List.mem_cons_self
    · intro hin
      exact hdistinct.2.2 _ hin _ List.mem_cons_self rfl
  · rintro ⟨h, hlast, hid, hcount⟩
    refine ⟨?_, ?_, ?_⟩
    · rw [List.map_append, List.pairwise_append]
      refine ⟨h.increasing, List.pairwise_singleton _ _, ?_⟩
      intro offset hoffset later hlater
      cases List.mem_singleton.mp hlater
      -- the last offset is the greatest
      cases List.eq_nil_or_concat parsed with
      | inl hnil =>
        rw [hnil] at hoffset
        cases hoffset
      | inr hconcat =>
        obtain ⟨front, last, rfl⟩ := hconcat
        rw [List.concat_eq_append] at hoffset hlast h
        have hgreatest := hlast last.storeOffset (by simp [LineInventory.of])
        have hincreasing := h.increasing
        rw [List.map_append, List.pairwise_append] at hincreasing
        rw [List.map_append] at hoffset
        rcases List.mem_append.mp hoffset with hfront | hlast
        · exact UInt64.lt_trans (hincreasing.2.2 _ hfront _ List.mem_cons_self) hgreatest
        · cases List.mem_singleton.mp hlast
          exact hgreatest
    · rw [List.map_append, List.nodup_append]
      refine ⟨h.distinct, List.nodup_singleton _, ?_⟩
      rintro id hin other hother rfl
      cases List.mem_singleton.mp hother
      exact hid hin
    · rw [List.length_append, List.length_singleton]
      exact hcount

/-- What the verifier has seen after one more line. -/
theorem verifyLine_eq_ok {parsed : List ParsedBackupLine} {line : List UInt8}
    {seen : LineInventory} (h : WellFormed policy parsed) :
    host.verifyLine policy (.of parsed) line = .ok seen ↔ ∃ next, host.ReadsLine policy line next ∧
      WellFormed policy (parsed ++ [next]) ∧ seen = .of (parsed ++ [next]) := by
  have hseen : ∀ next : ParsedBackupLine, ({
      count := (LineInventory.of parsed).count + 1
      firstStoreOffset := (LineInventory.of parsed).firstStoreOffset.orElse fun _ =>
        some next.storeOffset
      lastStoreOffset := some next.storeOffset
      eventIds := (LineInventory.of parsed).eventIds.insert next.event.id } : LineInventory) =
      .of (parsed ++ [next]) := by
    intro next
    have hfirst : (parsed.head?.map ParsedBackupLine.storeOffset).orElse
        (fun _ => some next.storeOffset) =
        (parsed ++ [next]).head?.map ParsedBackupLine.storeOffset := by
      cases parsed <;> rfl
    simp only [LineInventory.of, hfirst, List.foldl_append, List.getLast?_concat,
      List.length_append]
    rfl
  unfold verifyLine
  rw [Except.bind_eq_ok]
  constructor
  · rintro ⟨next, hnext, h'⟩
    obtain ⟨_, hverify, h'⟩ := Except.bind_eq_ok.mp h'
    obtain ⟨_, hoffset, h'⟩ := Except.bind_eq_ok.mp h'
    obtain ⟨_, hid, h'⟩ := Except.bind_eq_ok.mp h'
    obtain ⟨_, _, h'⟩ := Except.bind_eq_ok.mp h'
    obtain ⟨_, hcount, h'⟩ := Except.bind_eq_ok.mp h'
    rw [refuseIf_eq_ok] at hoffset hid hcount
    cases h'
    refine ⟨next, ⟨hnext, _, Except.mapError_eq_ok.mp hverify⟩, ?_, hseen next⟩
    refine wellFormed_append.mpr ⟨h, ?_, hid, Nat.le_of_not_lt hcount⟩
    intro offset hin
    exact UInt64.not_le.mp fun hle => hoffset ⟨offset, hin, hle⟩
  · rintro ⟨next, ⟨hnext, ⟨_, hverify⟩⟩, hmore, rfl⟩
    obtain ⟨_, hoffset, hid, hcount⟩ := wellFormed_append.mp hmore
    have hlt := policy.maximumEventCount.toNat_lt
    have hover : ¬ 2 ^ 64 ≤ (LineInventory.of parsed).count + 1 := by
      show ¬ 2 ^ 64 ≤ parsed.length + 1
      omega
    have hlast : ¬ ∃ offset ∈ (LineInventory.of parsed).lastStoreOffset,
        next.storeOffset ≤ offset :=
      fun ⟨offset, hin, hle⟩ => UInt64.not_le.mpr (hoffset offset hin) hle
    refine ⟨next, hnext, Except.bind_eq_ok.mpr ⟨_, Except.mapError_eq_ok.mpr hverify, ?_⟩⟩
    refine Except.bind_eq_ok.mpr ⟨(), refuseIf_eq_ok.mpr hlast, ?_⟩
    refine Except.bind_eq_ok.mpr ⟨(), refuseIf_eq_ok.mpr hid, ?_⟩
    refine Except.bind_eq_ok.mpr ⟨(), refuseIf_eq_ok.mpr hover, ?_⟩
    refine Except.bind_eq_ok.mpr ⟨(), refuseIf_eq_ok.mpr (Nat.not_lt.mpr hcount), ?_⟩
    exact congrArg Except.ok (hseen next)

/-- **The verifier reads lines one by one into what they say**, and accepts them exactly when each
is read and all together are well formed. By induction on the lines. -/
theorem foldlM_verifyLine {parsed : List ParsedBackupLine} {lines : List (List UInt8)}
    {seen : LineInventory} (h : WellFormed policy parsed) :
    lines.foldlM (host.verifyLine policy) (.of parsed) = .ok seen ↔
      ∃ more, List.Forall₂ (host.ReadsLine policy) lines more ∧
        WellFormed policy (parsed ++ more) ∧ seen = .of (parsed ++ more) := by
  induction lines generalizing parsed with
  | nil =>
    constructor
    · intro hseen
      cases hseen
      exact ⟨[], .nil, by rwa [List.append_nil], by rw [List.append_nil]⟩
    · rintro ⟨more, hmore, _, rfl⟩
      cases hmore
      rw [List.append_nil]
      rfl
  | cons line lines ih =>
    rw [Except.foldlM_cons_ok]
    constructor
    · rintro ⟨next, hnext, hrest⟩
      obtain ⟨read, hread, hmore, rfl⟩ := (verifyLine_eq_ok h).mp hnext
      obtain ⟨more, hlines, hall, rfl⟩ := (ih hmore).mp hrest
      rw [List.append_assoc] at hall ⊢
      exact ⟨read :: more, .cons hread hlines, hall, rfl⟩
    · rintro ⟨more, hlines, hall, rfl⟩
      cases hlines with
      | @cons _ read _ more hread hlines =>
        have hsplit : parsed ++ read :: more = parsed ++ [read] ++ more := by simp
        rw [hsplit] at hall
        have hnext : WellFormed policy (parsed ++ [read]) := by
          refine ⟨?_, ?_, ?_⟩
          · have hincreasing := hall.increasing
            rw [List.map_append, List.pairwise_append] at hincreasing
            exact hincreasing.1
          · have hdistinct := hall.distinct
            rw [List.map_append, List.nodup_append] at hdistinct
            exact hdistinct.1
          · have hcount := hall.count
            rw [List.length_append] at hcount
            omega
        refine ⟨_, (verifyLine_eq_ok h).mpr ⟨read, hread, hnext, rfl⟩, ?_⟩
        exact (ih hnext).mpr ⟨more, hlines, hall, by rw [hsplit]⟩

/-! ## Lines that are written -/

/-- What the writer and the readers of lines rely on: a printed document is read as it was and
stands on one line, and Pocket's parser reads what the JSON library prints of an event. -/
structure ReadsEvents (host : PortableHost) : Prop where
  inverse : host.json.Inverse
  oneLine : ∀ value : JsonValue, value.Canonical → '\n' ∉ host.json.toText value
  parses : ∀ event value, host.pocketEventJson event = .ok value →
    host.parsePocketEventJson (host.json.toText value) = .ok event

/-- An event is printed with its fields in the order that the writer gives them. -/
theorem canonical_pocketEventJson {event : SignedPocketEvent} {value : JsonValue}
    (h : host.pocketEventJson event = .ok value) : value.Canonical := by
  unfold pocketEventJson at h
  obtain ⟨tags, _, h⟩ := Except.bind_eq_ok.mp h
  obtain ⟨content, _, h⟩ := Except.bind_eq_ok.mp h
  cases h
  refine JsonMap.canonical_ofFields fun field hfield => ?_
  simp only [List.mem_cons, List.not_mem_nil, or_false] at hfield
  rcases hfield with rfl | rfl | rfl | rfl | rfl | rfl | rfl
  · exact .string _
  · exact .string _
  · exact .posInt _
  · exact .posInt _
  · refine .array fun item hitem => ?_
    obtain ⟨tag, _, rfl⟩ := List.mem_map.mp hitem
    exact JsonValue.canonical_texts tag
  · exact .string _
  · exact .string _

/-- The object of two fields, the later of which comes first in their order. -/
theorem toList_two {a b : Text} {x y : JsonValue} (h : FieldBefore b a) :
    (((∅ : JsonMap).insert a x).insert b y).toList = [(b, y), (a, x)] := by
  refine JsonMap.toList_eq (List.pairwise_pair.mpr h) fun name value => ?_
  rw [BTreeMap.getElem?_insert, BTreeMap.getElem?_insert]
  have hne := h.ne
  by_cases hb : b = name
  · subst hb
    simp [hne.symm, eq_comm]
  · by_cases ha : a = name
    · subst ha
      simp [hb, Ne.symm hb, eq_comm]
    · simp [hb, ha, Ne.symm hb, Ne.symm ha]

/-- The document of a line is read as the two values it was made from. -/
theorem ofValue_line (offset : UInt64) (event : JsonValue) :
    BackupLineDocument.ofValue (JsonMap.ofFields [
      ("store_offset", .unsigned offset), ("event", event)]).toValue =
        some ⟨offset, event.lastWins⟩ := by
  have hbefore : FieldBefore "event".toList "store_offset".toList := by
    unfold FieldBefore
    decide
  rw [JsonMap.toValue, JsonMap.ofFields, List.foldl_cons, List.foldl_cons, List.foldl_nil,
    toList_two hbefore]
  rfl

/-- A line is printed with its two fields in order. -/
theorem canonical_line {offset : UInt64} {event : JsonValue} (h : event.Canonical) :
    (JsonMap.ofFields [("store_offset", .unsigned offset),
      ("event", event)]).toValue.Canonical := by
  refine JsonMap.canonical_ofFields fun field hfield => ?_
  simp only [List.mem_cons, List.not_mem_nil, or_false] at hfield
  rcases hfield with rfl | rfl
  · exact .posInt _
  · exact h

/-- The line of an event has no newline in it. -/
theorem newline_not_mem_eventLine (hjson : host.ReadsEvents) {stored : ScannedEvent}
    {front : List UInt8} (h : host.eventLine stored = .ok front) : newline ∉ front := by
  unfold eventLine at h
  obtain ⟨event, hevent, h⟩ := Except.bind_eq_ok.mp h
  cases h
  exact newline_not_mem_toBytes
    (hjson.oneLine _ (canonical_line (canonical_pocketEventJson hevent)))

/-- A line that is written is read as the event and its place. -/
theorem parse_eventLine (hjson : host.ReadsEvents) {stored : ScannedEvent} {front : List UInt8}
    (h : host.eventLine stored = .ok front)
    (hshort : front.length ≤ policy.maximumEventJsonBytes.toNat) :
    host.parseBackupLine policy (front ++ [newline]) = .ok ⟨stored.storeOffset, stored.event⟩ := by
  unfold eventLine at h
  obtain ⟨event, hevent, h⟩ := Except.bind_eq_ok.mp h
  have hcanonical := canonical_pocketEventJson hevent
  have hdocument := @canonical_line stored.storeOffset event hcanonical
  cases h
  have hne := hjson.inverse.toText_ne_nil hdocument
  have hbytes : (host.json.toText (JsonMap.ofFields [
      ("store_offset", .unsigned stored.storeOffset), ("event", event)]).toValue).toBytes ≠ [] := by
    intro hnil
    have hempty := Text.ofBytes?_toBytes (host.json.toText (JsonMap.ofFields [
      ("store_offset", .unsigned stored.storeOffset), ("event", event)]).toValue)
    rw [hnil] at hempty
    exact hne (Option.some.inj (hempty.symm.trans (Text.ofBytes?_toBytes [])))
  unfold parseBackupLine
  rw [withoutNewline_append]
  refine Except.bind_eq_ok.mpr
    ⟨(), refuseIf_eq_ok.mpr (not_or.mpr ⟨hbytes, Nat.not_lt.mpr hshort⟩), ?_⟩
  refine Except.bind_eq_ok.mpr ⟨⟨stored.storeOffset, event.lastWins⟩, ?_, ?_⟩
  · rw [Except.okOr_eq_ok, Text.ofBytes?_toBytes]
    show (host.json.fromText _).toOption >>= BackupLineDocument.ofValue = _
    rw [hjson.inverse.fromText_toText _ hdocument]
    exact ofValue_line stored.storeOffset event
  · refine Except.bind_eq_ok.mpr ⟨stored.event, ?_, rfl⟩
    dsimp only
    rw [hcanonical.lastWins_eq]
    exact hjson.parses _ _ hevent

/-! ## What is accepted -/

/-- The name of the manifest's file. -/
def portableManifestName : EntryName := ⟨portableManifestFile.toBytes, by decide +kernel⟩

/-- The name of the events' file. -/
def portableEventsName : EntryName := ⟨portableEventsFile.toBytes, by decide +kernel⟩

/-- The contents of a manifest and of a file of events that are accepted together. -/
structure Verified (host : PortableHost) (identity : PortableRelayBackupIdentity)
    (policy : PortableRelayBackupPolicy) (raw contents : List UInt8)
    (manifest : PortableRelayBackupManifest) (parsed : List ParsedBackupLine) : Prop where
  small : raw.length ≤ 64 * 1024
  read : ∃ text, Text.ofBytes? raw = some text ∧ host.manifests.fromText text = .ok manifest
  schema : manifest.schema = portableSchema
  relayUrl : manifest.relayUrl = identity.relayUrl
  revision : isLowerHex manifest.pocketSourceRevision 40 = true
  path : manifest.events.path = portableEventsFile
  within : manifest.events.count ≤ policy.maximumEventCount ∧
    manifest.events.sizeBytes ≤ policy.maximumBackupBytes
  size : contents.length = manifest.events.sizeBytes.toNat
  digest : lowerHex (host.sha256 contents) = manifest.events.sha256
  lines : List.Forall₂ (host.ReadsLine policy) (fileLines contents) parsed
  wellFormed : WellFormed policy parsed
  count : parsed.length = manifest.events.count.toNat
  offsets : parsed.head?.map ParsedBackupLine.storeOffset = manifest.events.firstStoreOffset ∧
    parsed.getLast?.map ParsedBackupLine.storeOffset = manifest.events.lastStoreOffset

/-- What the verifier reports of a manifest. -/
def reportOf (manifest : PortableRelayBackupManifest)
    (input : OsPath) : PortableRelayBackupReport where
  backupPath := input.display
  relayUrl := manifest.relayUrl
  createdAtUnixSeconds := manifest.createdAtUnixSeconds
  eventCount := manifest.events.count
  eventsSha256 := manifest.events.sha256
  eventsSizeBytes := manifest.events.sizeBytes
  firstStoreOffset := manifest.events.firstStoreOffset
  lastStoreOffset := manifest.events.lastStoreOffset

/-- A file is read as the disk has it. -/
theorem readFile_eq_ok : host.readFile disk path = .ok contents ↔
    disk.read host.workingDirectory path = .ok contents := by
  unfold readFile
  split
  · rename_i hread
    simp [hread]
  · rename_i hread
    simp [hread]
  · rename_i hread
    simp [hread]

/-- A regular file is one that the disk has as a file. -/
theorem regularFileMetadata_eq_ok : host.regularFileMetadata disk path = .ok contents ↔
    disk.metadata host.workingDirectory path = .ok (.file contents) := by
  unfold regularFileMetadata
  rw [Except.bind_eq_ok]
  constructor
  · rintro ⟨entry, hentry, h⟩
    cases entry with
    | file found =>
      cases h
      exact Except.mapError_eq_ok.mp hentry
    | directory => cases h
  · intro h
    exact ⟨.file contents, Except.mapError_eq_ok.mpr h, rfl⟩

/-- The digest and the size of a file are those of its contents. -/
theorem fileSha256_eq_ok {digest : Text} {size : UInt64} :
    host.fileSha256 disk path = .ok (digest, size) ↔
      ∃ contents, disk.read host.workingDirectory path = .ok contents ∧
        lowerHex (host.sha256 contents) = digest ∧ contents.length = size.toNat := by
  unfold fileSha256
  rw [Except.bind_eq_ok]
  constructor
  · rintro ⟨contents, hread, h⟩
    obtain ⟨_, hsize, h⟩ := Except.bind_eq_ok.mp h
    rw [refuseIf_eq_ok, Nat.not_le] at hsize
    cases h
    exact ⟨contents, readFile_eq_ok.mp hread, rfl, (UInt64.toNat_ofNat_of_lt hsize).symm⟩
  · rintro ⟨contents, hread, rfl, hsize⟩
    have hlt := size.toNat_lt
    refine ⟨contents, readFile_eq_ok.mpr hread, ?_⟩
    refine Except.bind_eq_ok.mpr ⟨(), refuseIf_eq_ok.mpr (by omega), ?_⟩
    rw [hsize, UInt64.ofNat_toNat]
    rfl

/-- A file of a directory that is found. -/
theorem metadata_join_name (hfind : disk.find host.workingDirectory path = .ok place)
    (hdirectory : disk.at? place = some .directory) :
    disk.metadata host.workingDirectory (path.join (.ofName name)) = .ok (.file contents) ↔
      disk.file? (place ++ [name]) = some contents := by
  have hjoin : disk.find host.workingDirectory (path.join (.ofName name)) = .ok (place ++ [name]) :=
    Disk.find_join_name (Disk.find_eq_ok.mp hfind).2 hdirectory
  rw [Disk.metadata_eq_ok, FileTree.file?_eq_some]
  constructor
  · rintro ⟨found, hfound, hat⟩
    cases hjoin.symm.trans hfound
    exact hat
  · exact fun hat => ⟨_, hjoin, hat⟩

/-- A file of a directory is read where the directory's place says. -/
theorem read_join_name (hfind : disk.find host.workingDirectory path = .ok place)
    (hdirectory : disk.at? place = some .directory) :
    disk.read host.workingDirectory (path.join (.ofName name)) = .ok contents ↔
      disk.file? (place ++ [name]) = some contents := by
  have hjoin : disk.find host.workingDirectory (path.join (.ofName name)) = .ok (place ++ [name]) :=
    Disk.find_join_name (Disk.find_eq_ok.mp hfind).2 hdirectory
  rw [Disk.read_eq_ok]
  constructor
  · rintro ⟨found, hfound, hfile⟩
    cases hjoin.symm.trans hfound
    exact hfile
  · exact fun hfile => ⟨_, hjoin, hfile⟩

/-- The manifest's file is a path of one part. -/
theorem ofText_portableManifestFile :
    OsPath.ofText portableManifestFile = .ofName portableManifestName := rfl

/-- The events' file is a path of one part. -/
theorem ofText_portableEventsFile :
    OsPath.ofText portableEventsFile = .ofName portableEventsName := rfl

/-- **A manifest is read exactly when** the directory holds it and its bytes are the text of a JSON
that stands for it. -/
theorem readManifest_eq_ok {manifest : PortableRelayBackupManifest} :
    host.readManifest disk path = .ok manifest ↔ ∃ place raw text,
      disk.find host.workingDirectory path = .ok place ∧ disk.at? place = some .directory ∧
        disk.file? (place ++ [portableManifestName]) = some raw ∧ raw.length ≤ 64 * 1024 ∧
        Text.ofBytes? raw = some text ∧ host.manifests.fromText text = .ok manifest := by
  unfold readManifest
  rw [Except.bind_eq_ok]
  constructor
  · rintro ⟨entry, hentry, h⟩
    obtain ⟨place, hfind, hat⟩ := Disk.metadata_eq_ok.mp (Except.mapError_eq_ok.mp hentry)
    cases entry with
    | file => cases h
    | directory =>
      obtain ⟨raw, hraw, h⟩ := Except.bind_eq_ok.mp h
      obtain ⟨_, hsmall, h⟩ := Except.bind_eq_ok.mp h
      obtain ⟨again, hagain, h⟩ := Except.bind_eq_ok.mp h
      rw [refuseIf_eq_ok, Nat.not_lt] at hsmall
      rw [ofText_portableManifestFile] at hraw hagain
      have hfile := (metadata_join_name hfind hat).mp (regularFileMetadata_eq_ok.mp hraw)
      have hread := (read_join_name hfind hat).mp (Except.mapError_eq_ok.mp hagain)
      cases hfile.symm.trans hread
      obtain ⟨text, htext, hmanifest⟩ := Option.bind_eq_some_iff.mp (Except.okOr_eq_ok.mp h)
      refine ⟨place, raw, text, hfind, hat, hfile, hsmall, htext, ?_⟩
      cases hfrom : host.manifests.fromText text with
      | error error =>
        rw [hfrom] at hmanifest
        cases hmanifest
      | ok found =>
        rw [hfrom] at hmanifest
        cases hmanifest
        rfl
  · rintro ⟨place, raw, text, hfind, hat, hfile, hsmall, htext, hfrom⟩
    refine ⟨.directory, Except.mapError_eq_ok.mpr (Disk.metadata_of_find hfind hat), ?_⟩
    dsimp only
    rw [ofText_portableManifestFile]
    refine Except.bind_eq_ok.mpr
      ⟨raw, regularFileMetadata_eq_ok.mpr ((metadata_join_name hfind hat).mpr hfile), ?_⟩
    refine Except.bind_eq_ok.mpr ⟨(), refuseIf_eq_ok.mpr (Nat.not_lt.mpr hsmall), ?_⟩
    refine Except.bind_eq_ok.mpr
      ⟨raw, Except.mapError_eq_ok.mpr ((read_join_name hfind hat).mpr hfile), ?_⟩
    rw [Except.okOr_eq_ok, htext]
    show (host.manifests.fromText text).toOption = some manifest
    rw [hfrom]
    rfl

/-- What the verifier accepts, and what it then reports. -/
theorem verify_eq_ok {identity : PortableRelayBackupIdentity} {input : OsPath}
    {report : PortableRelayBackupReport} :
    host.verifyPortableRelayBackup disk input identity policy = .ok report ↔
      ∃ place raw contents manifest parsed,
        disk.find host.workingDirectory input = .ok place ∧ disk.at? place = some .directory ∧
        disk.file? (place ++ [portableManifestName]) = some raw ∧
        disk.file? (place ++ [portableEventsName]) = some contents ∧
        host.Verified identity policy raw contents manifest parsed ∧
        report = reportOf manifest input := by
  unfold verifyPortableRelayBackup
  rw [Except.bind_eq_ok, ofText_portableEventsFile]
  constructor
  · rintro ⟨manifest, hmanifest, h⟩
    obtain ⟨place, raw, text, hfind, hat, hraw, hsmall, htext, hfrom⟩ :=
      readManifest_eq_ok.mp hmanifest
    obtain ⟨_, hschema, h⟩ := Except.bind_eq_ok.mp h
    obtain ⟨_, hrelay, h⟩ := Except.bind_eq_ok.mp h
    obtain ⟨_, hrevision, h⟩ := Except.bind_eq_ok.mp h
    obtain ⟨_, hpath, h⟩ := Except.bind_eq_ok.mp h
    obtain ⟨_, hwithin, h⟩ := Except.bind_eq_ok.mp h
    obtain ⟨contents, hcontents, h⟩ := Except.bind_eq_ok.mp h
    obtain ⟨_, hsize, h⟩ := Except.bind_eq_ok.mp h
    obtain ⟨⟨digest, size⟩, hdigest, h⟩ := Except.bind_eq_ok.mp h
    obtain ⟨_, hsame, h⟩ := Except.bind_eq_ok.mp h
    obtain ⟨observed, hobserved, h⟩ := Except.bind_eq_ok.mp h
    obtain ⟨_, hinventory, h⟩ := Except.bind_eq_ok.mp h
    rw [refuseIf_eq_ok, not_not] at hschema hrelay hpath hsize hsame
    rw [refuseIf_eq_ok] at hrevision
    rw [refuseIf_eq_ok, not_or, UInt64.not_lt, UInt64.not_lt] at hwithin
    rw [refuseIf_eq_ok, not_or, not_or, not_not, not_not, not_not] at hinventory
    have hfile := (metadata_join_name hfind hat).mp (regularFileMetadata_eq_ok.mp hcontents)
    obtain ⟨again, hagain, hsha, hlength⟩ := fileSha256_eq_ok.mp hdigest
    cases hfile.symm.trans ((read_join_name hfind hat).mp hagain)
    unfold verifyEventLines at hobserved
    obtain ⟨again, hagain, hlines⟩ := Except.bind_eq_ok.mp hobserved
    cases hfile.symm.trans ((read_join_name hfind hat).mp (readFile_eq_ok.mp hagain))
    obtain ⟨parsed, hparsed, hwell, rfl⟩ := (@foldlM_verifyLine host policy [] _ _
      ⟨.nil, List.nodup_nil, Nat.zero_le _⟩).mp hlines
    rw [List.nil_append] at hwell hinventory h
    have hsizes : size = manifest.events.sizeBytes :=
      UInt64.toNat_inj.mp (hlength.symm.trans hsize)
    cases h
    refine ⟨place, raw, contents, manifest, parsed, hfind, hat, hraw, hfile, ?_, ?_⟩
    · exact ⟨hsmall, ⟨text, htext, hfrom⟩, hschema, hrelay, Bool.not_eq_false _ ▸ hrevision, hpath,
        hwithin, hsize, hsha.trans hsame, hparsed, hwell, hinventory.1, hinventory.2⟩
    · have hcount : UInt64.ofNat parsed.length = manifest.events.count := by
        rw [show parsed.length = manifest.events.count.toNat from hinventory.1, UInt64.ofNat_toNat]
      rw [hsame, hsizes]
      simp only [reportOf, LineInventory.of] at hinventory ⊢
      rw [hcount, hinventory.2.1, hinventory.2.2]
  · rintro ⟨place, raw, contents, manifest, parsed, hfind, hat, hraw, hfile, h, rfl⟩
    obtain ⟨text, htext, hfrom⟩ := h.read
    have hlines : (fileLines contents).foldlM (host.verifyLine policy) ⟨0, none, none, ∅⟩ =
        .ok (.of parsed) :=
      (@foldlM_verifyLine host policy [] _ _ ⟨.nil, List.nodup_nil, Nat.zero_le _⟩).mpr
        ⟨parsed, h.lines, by rw [List.nil_append]; exact h.wellFormed, by rw [List.nil_append]⟩
    have hread := (read_join_name hfind hat).mpr hfile
    refine ⟨manifest, readManifest_eq_ok.mpr
      ⟨place, raw, text, hfind, hat, hraw, h.small, htext, hfrom⟩, ?_⟩
    refine Except.bind_eq_ok.mpr ⟨(), refuseIf_eq_ok.mpr (not_not.mpr h.schema), ?_⟩
    refine Except.bind_eq_ok.mpr ⟨(), refuseIf_eq_ok.mpr (not_not.mpr h.relayUrl), ?_⟩
    refine Except.bind_eq_ok.mpr ⟨(), refuseIf_eq_ok.mpr (by rw [h.revision]; nofun), ?_⟩
    refine Except.bind_eq_ok.mpr ⟨(), refuseIf_eq_ok.mpr (not_not.mpr h.path), ?_⟩
    refine Except.bind_eq_ok.mpr ⟨(), refuseIf_eq_ok.mpr (not_or.mpr
      ⟨UInt64.not_lt.mpr h.within.1, UInt64.not_lt.mpr h.within.2⟩), ?_⟩
    refine Except.bind_eq_ok.mpr ⟨contents,
      regularFileMetadata_eq_ok.mpr ((metadata_join_name hfind hat).mpr hfile), ?_⟩
    refine Except.bind_eq_ok.mpr ⟨(), refuseIf_eq_ok.mpr (not_not.mpr h.size), ?_⟩
    refine Except.bind_eq_ok.mpr ⟨(manifest.events.sha256, manifest.events.sizeBytes),
      fileSha256_eq_ok.mpr ⟨contents, hread, h.digest, h.size⟩, ?_⟩
    refine Except.bind_eq_ok.mpr ⟨(), refuseIf_eq_ok.mpr (not_not.mpr rfl), ?_⟩
    refine Except.bind_eq_ok.mpr ⟨.of parsed,
      Except.bind_eq_ok.mpr ⟨contents, readFile_eq_ok.mpr hread, hlines⟩, ?_⟩
    refine Except.bind_eq_ok.mpr ⟨(), refuseIf_eq_ok.mpr ?_, ?_⟩
    · rw [not_or, not_or, not_not, not_not, not_not]
      exact ⟨h.count, h.offsets⟩
    · have hcount : UInt64.ofNat parsed.length = manifest.events.count := by
        rw [h.count, UInt64.ofNat_toNat]
      simp only [reportOf, LineInventory.of]
      rw [hcount, h.offsets.1, h.offsets.2]
      rfl

end PortableHost

end Tangle
