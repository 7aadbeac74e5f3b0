import Tangle.Host.PortableStages
import Tangle.Host.PortableDocuments

/-!
# Portable backups that are made

A backup of a store is made exactly when the policy and the verifier take what it writes: the events
are few enough, print to lines that are short enough, the file and the manifest are small enough,
and the events are verified, stand at increasing offsets and have no id twice
(`portableBackup_made_iff`). The writer checks only some of this itself; the rest is found when it
verifies its own stage.
-/

namespace Tangle

/-- A scanned event as its line is read. -/
def ScannedEvent.parsed (stored : ScannedEvent) : ParsedBackupLine :=
  ⟨stored.storeOffset, stored.event⟩

namespace PortableHost

variable {host : PortableHost} {identity : PortableRelayBackupIdentity}
  {policy : PortableRelayBackupPolicy} {disk later base : Disk}
  {stage dataDirectory output : OsPath}
  {events : List ScannedEvent} {name : EntryName} {contents : List UInt8}
  {fronts lines : List (List UInt8)} {now : UInt64}

/-! ## Lines -/

/-- The lines of a backup are made exactly when every event's line is, each line within the bound,
and each ends with a newline. -/
theorem mapM_backupLine_eq_ok : events.mapM (host.backupLine policy) = .ok lines ↔
    ∃ fronts, events.mapM host.eventLine = .ok fronts ∧
      (∀ front ∈ fronts, front.length ≤ policy.maximumEventJsonBytes.toNat) ∧
      lines = fronts.map (· ++ [newline]) := by
  have hline : ∀ stored line, host.backupLine policy stored = .ok line ↔
      ∃ front, host.eventLine stored = .ok front ∧
        front.length ≤ policy.maximumEventJsonBytes.toNat ∧ line = front ++ [newline] := by
    intro stored line
    unfold backupLine
    rw [Except.bind_eq_ok]
    constructor
    · rintro ⟨front, hfront, h⟩
      obtain ⟨_, hshort, h⟩ := Except.bind_eq_ok.mp h
      rw [refuseIf_eq_ok, Nat.not_lt] at hshort
      cases h
      exact ⟨front, hfront, hshort, rfl⟩
    · rintro ⟨front, hfront, hshort, rfl⟩
      exact ⟨front, hfront,
        Except.bind_eq_ok.mpr ⟨(), refuseIf_eq_ok.mpr (Nat.not_lt.mpr hshort), rfl⟩⟩
  rw [Except.mapM_eq_ok]
  constructor
  · intro h
    induction h with
    | nil => exact ⟨[], rfl, by simp, rfl⟩
    | @cons stored line _ _ hwritten _ ih =>
      obtain ⟨front, hfront, hshort, rfl⟩ := (hline stored line).mp hwritten
      obtain ⟨fronts, hfronts, hall, rfl⟩ := ih
      refine ⟨front :: fronts, ?_, List.forall_mem_cons.mpr ⟨hshort, hall⟩, rfl⟩
      exact Except.mapM_eq_ok.mpr (.cons hfront (Except.mapM_eq_ok.mp hfronts))
  · rintro ⟨fronts, hfronts, hall, rfl⟩
    have hread := Except.mapM_eq_ok.mp hfronts
    clear hfronts
    induction hread with
    | nil => exact .nil
    | @cons stored front _ _ hfront _ ih =>
      obtain ⟨hshort, hrest⟩ := List.forall_mem_cons.mp hall
      exact .cons ((hline stored _).mpr ⟨front, hfront, hshort, rfl⟩) (ih hrest)

/-! ## Files in a stage -/

/-- A file is written in a stage, and is all that changes. -/
theorem Building.writes {directory : DataDirectory} (hstaged : host.Staged base stage)
    (h : host.Building base stage later directory) (contents : List UInt8)
    (hfree : later.at? (stage.place host.workingDirectory ++ [name]) ≠ some .directory) :
    ∃ after, later.write host.workingDirectory (stage.join (.ofName name)) contents = .ok after ∧
      host.Building base stage after (after.below (stage.place host.workingDirectory)) ∧
      ∀ other, after.at? other =
        if other = stage.place host.workingDirectory ++ [name] then some (.file contents)
        else later.at? other := by
  have hfind : later.find host.workingDirectory (stage.join (.ofName name)) =
      .ok (stage.place host.workingDirectory ++ [name]) :=
    Disk.find_join_name (Disk.find_eq_ok.mp (h.found hstaged)).2 h.stands
  obtain ⟨after, hafter⟩ := @Disk.write_of_find _ _ _ _ _ contents hfind h.stands hfree
  have hat := write_join_name hafter
  refine ⟨after, hafter, ⟨?_, ?_, rfl⟩, hat⟩
  · intro place hplace
    rw [hat, if_neg, h.outside place hplace]
    rintro rfl
    exact hplace (List.prefix_append _ _)
  · rw [hat, if_neg (by simp), h.stands]

/-! ## What is written -/

/-- The file of lines. -/
def fileOf (fronts : List (List UInt8)) : List UInt8 :=
  (fronts.map (· ++ [newline])).flatten

/-- The manifest of a file of events. -/
def manifestOf (host : PortableHost) (identity : PortableRelayBackupIdentity)
    (events : List ScannedEvent) (contents : List UInt8) (now : UInt64) :
    PortableRelayBackupManifest where
  schema := portableSchema
  tangleVersion := host.tangleRelayVersion
  pocketSourceRevision := Tangle.pocketSourceRevision
  relayUrl := identity.relayUrl
  createdAtUnixSeconds := now
  events := {
    path := portableEventsFile
    count := .ofNat events.length
    sha256 := lowerHex (host.sha256 contents)
    sizeBytes := .ofNat contents.length
    firstStoreOffset := events.head?.map ScannedEvent.storeOffset
    lastStoreOffset := events.getLast?.map ScannedEvent.storeOffset }

/-- What the policy and the verifier ask of a backup. -/
structure Fits (host : PortableHost) (identity : PortableRelayBackupIdentity)
    (policy : PortableRelayBackupPolicy) (events : List ScannedEvent)
    (fronts : List (List UInt8)) (now : UInt64) : Prop where
  count : events.length ≤ policy.maximumEventCount.toNat
  lines : ∀ front ∈ fronts, front.length ≤ policy.maximumEventJsonBytes.toNat
  bytes : (fileOf fronts).length ≤ policy.maximumBackupBytes.toNat
  manifest : (host.manifests.toText
    (host.manifestOf identity events (fileOf fronts) now)).toBytes.length ≤ 64 * 1024
  verified : ∀ stored ∈ events, (host.verify stored.event).Succeeds
  increasing : (events.map ScannedEvent.storeOffset).Pairwise (· < ·)
  distinct : (events.map (·.event.id)).Nodup

/-- The store, opened and synced, and its events. -/
def Scans (host : PortableHost) (dataDirectory : OsPath) (disk base : Disk)
    (events : List ScannedEvent) : Prop :=
  ∃ opened, host.openStore dataDirectory disk = .ok opened ∧
    host.onStore host.stores.synced dataDirectory opened = .ok base ∧
    host.scanEvents dataDirectory base = .ok events

/-- The two files of a backup have different names. -/
theorem portableNames_ne : portableEventsName ≠ portableManifestName := fun heq =>
  absurd (congrArg EntryName.bytes heq) (by decide +kernel)

/-- What a backup leaves in its stage. -/
theorem written_of_create {report : PortableRelayBackupReport}
    (hscan : host.Scans dataDirectory disk base events)
    (h : host.createBackupInStage dataDirectory identity stage policy disk = .ok (later, report)) :
    ∃ fronts now verified, events.mapM host.eventLine = .ok fronts ∧
      host.nowUnixSeconds = .ok now ∧ events.length ≤ policy.maximumEventCount.toNat ∧
      (∀ front ∈ fronts, front.length ≤ policy.maximumEventJsonBytes.toNat) ∧
      (fileOf fronts).length ≤ policy.maximumBackupBytes.toNat ∧
      later.file? (stage.place host.workingDirectory ++ [portableEventsName]) =
        some (fileOf fronts) ∧
      later.file? (stage.place host.workingDirectory ++ [portableManifestName]) =
        some (host.manifests.toText
          (host.manifestOf identity events (fileOf fronts) now)).toBytes ∧
      host.verifyPortableRelayBackup later stage identity policy = .ok verified := by
  obtain ⟨opened, hopened, hsynced, hscanned⟩ := hscan
  unfold createBackupInStage at h
  obtain ⟨opened', hopened', h⟩ := Except.bind_eq_ok.mp h
  cases hopened.symm.trans hopened'
  obtain ⟨synced, hsynced', h⟩ := Except.bind_eq_ok.mp h
  cases hsynced.symm.trans hsynced'
  obtain ⟨scanned, hscanned', h⟩ := Except.bind_eq_ok.mp h
  cases hscanned.symm.trans hscanned'
  obtain ⟨_, hcount, h⟩ := Except.bind_eq_ok.mp h
  rw [refuseIf_eq_ok, Nat.not_lt] at hcount
  obtain ⟨created, _, h⟩ := Except.bind_eq_ok.mp h
  obtain ⟨lines, hlines, h⟩ := Except.bind_eq_ok.mp h
  obtain ⟨filled, hfilled, h⟩ := Except.bind_eq_ok.mp h
  obtain ⟨⟨digest, size⟩, hdigest, h⟩ := Except.bind_eq_ok.mp h
  obtain ⟨_, hbytes, h⟩ := Except.bind_eq_ok.mp h
  rw [refuseIf_eq_ok, UInt64.not_lt] at hbytes
  obtain ⟨now, hnow, h⟩ := Except.bind_eq_ok.mp h
  obtain ⟨written, hwritten, h⟩ := Except.bind_eq_ok.mp h
  obtain ⟨verified, hverified, h⟩ := Except.bind_eq_ok.mp h
  cases h
  rw [ofText_portableEventsFile] at hfilled hdigest
  rw [ofText_portableManifestFile] at hwritten
  obtain ⟨fronts, hfronts, hshort, rfl⟩ := mapM_backupLine_eq_ok.mp hlines
  have hfilledAt := write_join_name (Except.mapError_eq_ok.mp hfilled)
  have hwrittenAt := write_join_name (Except.mapError_eq_ok.mp hwritten)
  obtain ⟨contents, hread, rfl, hsize⟩ := fileSha256_eq_ok.mp hdigest
  have hcontents : contents = fileOf fronts := by
    obtain ⟨found, hfound, hfile⟩ := Disk.read_eq_ok.mp hread
    have hplace := Disk.walk_place (Disk.find_eq_ok.mp hfound).2
    rw [place_join_name] at hplace
    have hat := hfilledAt found
    rw [if_pos hplace] at hat
    exact Option.some.inj (hfile.symm.trans (FileTree.file?_eq_some.mpr hat))
  subst hcontents
  refine ⟨fronts, now, verified, hfronts, hnow, hcount, hshort, ?_, ?_, ?_, hverified⟩
  · rw [hsize]
    exact UInt64.le_iff_toNat_le.mp hbytes
  · rw [FileTree.file?_eq_some, hwrittenAt, if_neg, hfilledAt, if_pos rfl]
    · rfl
    · exact fun heq => portableNames_ne (List.singleton_inj.mp (List.append_cancel_left heq))
  · rw [FileTree.file?_eq_some, hwrittenAt, if_pos rfl]
    have hsizeEq : size = .ofNat (fileOf fronts).length := by
      rw [hsize, UInt64.ofNat_toNat]
    rw [hsizeEq]
    rfl

/-! ## What is read of it -/

/-- The lines of a file that was written are read as what was scanned. -/
theorem readsLines_fileOf (hjson : host.ReadsEvents) {parsed : List ParsedBackupLine}
    (hfronts : events.mapM host.eventLine = .ok fronts)
    (hshort : ∀ front ∈ fronts, front.length ≤ policy.maximumEventJsonBytes.toNat) :
    List.Forall₂ (host.ReadsLine policy) (fileLines (fileOf fronts)) parsed ↔
      parsed = events.map ScannedEvent.parsed ∧
        ∀ stored ∈ events, (host.verify stored.event).Succeeds := by
  have hwritten := Except.mapM_eq_ok.mp hfronts
  have hlines : fileLines (fileOf fronts) = fronts.map (· ++ [newline]) := by
    refine fileLines_flatten fun front hfront => ?_
    obtain ⟨stored, _, hstored⟩ := Except.mapM_mem hfronts front hfront
    exact newline_not_mem_eventLine hjson hstored
  rw [hlines]
  clear hlines hfronts
  induction hwritten generalizing parsed with
  | nil =>
    rw [List.map_nil, List.forall₂_nil_left_iff]
    simp
  | @cons stored front _ _ hfront _ ih =>
    obtain ⟨hfirst, hrest⟩ := List.forall_mem_cons.mp hshort
    have hparse := parse_eventLine hjson hfront hfirst
    rw [List.map_cons, List.forall₂_cons_left_iff, List.map_cons, List.forall_mem_cons]
    constructor
    · rintro ⟨read, others, hread, hothers, rfl⟩
      obtain ⟨rfl, hverified⟩ := (ih hrest).mp hothers
      have hsame : read = stored.parsed := Except.ok.inj (hread.1.symm.trans hparse)
      rw [hsame] at hread ⊢
      exact ⟨rfl, hread.2, hverified⟩
    · rintro ⟨rfl, hverified, hothers⟩
      exact ⟨stored.parsed, _, ⟨hparse, hverified⟩, (ih hrest).mpr ⟨rfl, hothers⟩, rfl⟩

/-- A backup that was made fits. -/
theorem fits_of_create (hjson : host.ReadsEvents) {report : PortableRelayBackupReport}
    (hscan : host.Scans dataDirectory disk base events)
    (h : host.createBackupInStage dataDirectory identity stage policy disk = .ok (later, report)) :
    ∃ fronts now, events.mapM host.eventLine = .ok fronts ∧ host.nowUnixSeconds = .ok now ∧
      host.Fits identity policy events fronts now := by
  obtain ⟨fronts, now, verified, hfronts, hnow, hcount, hshort, hbytes, hfile, hraw, hverified⟩ :=
    written_of_create hscan h
  obtain ⟨place, raw, contents, manifest, parsed, hfind, _, hraw', hfile', hall, _⟩ :=
    verify_eq_ok.mp hverified
  cases Disk.walk_place (Disk.find_eq_ok.mp hfind).2
  cases hraw.symm.trans hraw'
  cases hfile.symm.trans hfile'
  obtain ⟨rfl, hsigned⟩ := (readsLines_fileOf hjson hfronts hshort).mp hall.lines
  have hincreasing := hall.wellFormed.increasing
  have hdistinct := hall.wellFormed.distinct
  rw [List.map_map] at hincreasing hdistinct
  exact ⟨fronts, now, hfronts, hnow, hcount, hshort, hbytes, hall.small, hsigned, hincreasing,
    hdistinct⟩

/-! ## What can be made -/

/-- What fits is accepted by the verifier. -/
theorem verified_of_fits (hjson : host.ReadsEvents) (hmanifests : host.manifests.ReadsBack)
    (hfronts : events.mapM host.eventLine = .ok fronts)
    (h : host.Fits identity policy events fronts now) :
    host.Verified identity policy
      (host.manifests.toText (host.manifestOf identity events (fileOf fronts) now)).toBytes
      (fileOf fronts) (host.manifestOf identity events (fileOf fronts) now)
      (events.map ScannedEvent.parsed) := by
  have hcountEq : (UInt64.ofNat events.length).toNat = events.length :=
    UInt64.toNat_ofNat_of_lt (lt_of_le_of_lt h.count policy.maximumEventCount.toNat_lt)
  have hsizeEq : (UInt64.ofNat (fileOf fronts).length).toNat = (fileOf fronts).length :=
    UInt64.toNat_ofNat_of_lt (lt_of_le_of_lt h.bytes policy.maximumBackupBytes.toNat_lt)
  constructor
  · exact h.manifest
  · exact ⟨_, Text.ofBytes?_toBytes _, hmanifests _⟩
  · rfl
  · rfl
  · show isLowerHex Tangle.pocketSourceRevision 40 = true
    decide +kernel
  · rfl
  · constructor
    · rw [UInt64.le_iff_toNat_le]
      exact hcountEq.trans_le h.count
    · rw [UInt64.le_iff_toNat_le]
      exact hsizeEq.trans_le h.bytes
  · exact hsizeEq.symm
  · rfl
  · exact (readsLines_fileOf hjson hfronts h.lines).mpr ⟨rfl, h.verified⟩
  · constructor
    · rw [List.map_map]
      exact h.increasing
    · rw [List.map_map]
      exact h.distinct
    · rw [List.length_map]
      exact h.count
  · rw [List.length_map]
    exact hcountEq.symm
  · rw [List.head?_map, List.getLast?_map, Option.map_map, Option.map_map]
    exact ⟨rfl, rfl⟩

/-- What fits is made in an empty stage. -/
theorem create_of_fits (hjson : host.ReadsEvents) (hmanifests : host.manifests.ReadsBack)
    (hscan : host.Scans dataDirectory disk base events) (hstaged : host.Staged base stage)
    (hfronts : events.mapM host.eventLine = .ok fronts) (hnow : host.nowUnixSeconds = .ok now)
    (h : host.Fits identity policy events fronts now) :
    ∃ later directory,
      host.createBackupInStage dataDirectory identity stage policy disk =
          .ok (later, reportOf (host.manifestOf identity events (fileOf fronts) now) stage) ∧
        host.Building base stage later directory := by
  obtain ⟨opened, hopened, hsynced, hscanned⟩ := hscan
  have hempty : ∀ name, base.at? (stage.place host.workingDirectory ++ [name]) ≠
      some .directory := by
    intro name
    rw [hstaged.empty _ (List.cons_ne_nil _ _)]
    simp
  obtain ⟨created, hcreated, hbuilding, hcreatedAt⟩ :=
    hstaged.building.writes hstaged [] (hempty portableEventsName)
  obtain ⟨filled, hfilled, hbuilding', hfilledAt⟩ := hbuilding.writes hstaged (fileOf fronts) (by
    rw [hcreatedAt, if_pos rfl]
    simp)
  have hne : stage.place host.workingDirectory ++ [portableManifestName] ≠
      stage.place host.workingDirectory ++ [portableEventsName] := fun heq =>
    portableNames_ne (List.singleton_inj.mp (List.append_cancel_left heq)).symm
  obtain ⟨written, hwritten, hbuilding'', hwrittenAt⟩ := hbuilding'.writes hstaged
    (host.manifests.toText (host.manifestOf identity events (fileOf fronts) now)).toBytes (by
      rw [hfilledAt, if_neg hne, hcreatedAt, if_neg hne]
      exact hempty portableManifestName)
  have hsizeEq : (fileOf fronts).length = (UInt64.ofNat (fileOf fronts).length).toNat :=
    (UInt64.toNat_ofNat_of_lt (lt_of_le_of_lt h.bytes policy.maximumBackupBytes.toNat_lt)).symm
  have hfileFilled : filled.file? (stage.place host.workingDirectory ++ [portableEventsName]) =
      some (fileOf fronts) := by
    rw [FileTree.file?_eq_some, hfilledAt, if_pos rfl]
  have hread : filled.read host.workingDirectory (stage.join (.ofName portableEventsName)) =
      .ok (fileOf fronts) :=
    (read_join_name (hbuilding'.found hstaged) hbuilding'.stands).mpr hfileFilled
  have hverify := verify_eq_ok.mpr ⟨_, _, _, _, _, hbuilding''.found hstaged, hbuilding''.stands,
    FileTree.file?_eq_some.mpr (by rw [hwrittenAt, if_pos rfl]),
    FileTree.file?_eq_some.mpr (by
      rw [hwrittenAt, if_neg hne.symm]
      exact FileTree.file?_eq_some.mp hfileFilled),
    verified_of_fits hjson hmanifests hfronts h, rfl⟩
  refine ⟨written, _, ?_, hbuilding''⟩
  unfold createBackupInStage
  rw [ofText_portableEventsFile, ofText_portableManifestFile]
  refine Except.bind_eq_ok.mpr ⟨opened, hopened, Except.bind_eq_ok.mpr ⟨base, hsynced, ?_⟩⟩
  refine Except.bind_eq_ok.mpr ⟨events, hscanned, ?_⟩
  refine Except.bind_eq_ok.mpr ⟨(), refuseIf_eq_ok.mpr (Nat.not_lt.mpr h.count), ?_⟩
  refine Except.bind_eq_ok.mpr ⟨created, Except.mapError_eq_ok.mpr hcreated, ?_⟩
  refine Except.bind_eq_ok.mpr
    ⟨_, mapM_backupLine_eq_ok.mpr ⟨fronts, hfronts, h.lines, rfl⟩, ?_⟩
  refine Except.bind_eq_ok.mpr ⟨filled, Except.mapError_eq_ok.mpr hfilled, ?_⟩
  refine Except.bind_eq_ok.mpr ⟨(lowerHex (host.sha256 (fileOf fronts)),
    .ofNat (fileOf fronts).length), fileSha256_eq_ok.mpr ⟨_, hread, rfl, hsizeEq⟩, ?_⟩
  refine Except.bind_eq_ok.mpr ⟨(), refuseIf_eq_ok.mpr ?_, ?_⟩
  · rw [UInt64.not_lt, UInt64.le_iff_toNat_le, ← hsizeEq]
    exact h.bytes
  refine Except.bind_eq_ok.mpr ⟨now, hnow, ?_⟩
  refine Except.bind_eq_ok.mpr ⟨written, Except.mapError_eq_ok.mpr hwritten, ?_⟩
  exact Except.bind_eq_ok.mpr ⟨_, hverify, rfl⟩

/-- What fits is made at the output, and nothing is changed beside the stage and the output. -/
theorem createPortable_of_fits (hjson : host.ReadsEvents) (hmanifests : host.manifests.ReadsBack)
    {made moved : Disk} (hprepared : host.prepareBackup disk output = .ok (made, stage))
    (hscan : host.Scans dataDirectory made base events) (hstaged : host.Staged base stage)
    (hmoved : base.renameDirectory host.workingDirectory stage output = .ok moved)
    (haway : moved.at? (stage.place host.workingDirectory) = none)
    (hfronts : events.mapM host.eventLine = .ok fronts) (hnow : host.nowUnixSeconds = .ok now)
    (h : host.Fits identity policy events fronts now) :
    ∃ written report place,
      host.createPortableRelayBackup dataDirectory identity output policy disk =
          .ok (written, report) ∧
        written.find host.workingDirectory output = .ok place ∧
        ∀ other, ¬ stage.place host.workingDirectory <+: other → ¬ place <+: other →
          written.at? other = base.at? other := by
  obtain ⟨later, directory, hcreated, hbuilding⟩ :=
    create_of_fits hjson hmanifests hscan hstaged hfronts hnow h
  obtain ⟨hup, _⟩ := made_of_prepareBackup hprepared
  obtain ⟨final, place, hfinal, hfind, _, _, hbeside⟩ := hbuilding.moved hstaged hup hmoved haway
  refine ⟨final, { reportOf (host.manifestOf identity events (fileOf fronts) now) stage with
    backupPath := output.display }, place, ?_, hfind, hbeside⟩
  unfold createPortableRelayBackup
  refine Except.bind_eq_ok.mpr ⟨_, hprepared, Except.bind_eq_ok.mpr ⟨_, hcreated, ?_⟩⟩
  exact Except.bind_eq_ok.mpr ⟨final, Except.mapError_eq_ok.mpr hfinal, rfl⟩

end PortableHost

/-- A backup of a store that opens is made, where its stage can be made and moved, exactly when its
events print and the policy and the verifier take what is printed. -/
theorem portableBackup_made_iff {host : PortableHost} (hjson : host.ReadsEvents)
    (hmanifests : host.manifests.ReadsBack) {dataDirectory output stage : OsPath}
    (identity : PortableRelayBackupIdentity) (policy : PortableRelayBackupPolicy)
    {disk made base moved : Disk} {events : List ScannedEvent}
    (hprepared : host.prepareBackup disk output = .ok (made, stage))
    (hscan : host.Scans dataDirectory made base events) (hstaged : host.Staged base stage)
    (hmoved : base.renameDirectory host.workingDirectory stage output = .ok moved)
    (haway : moved.at? (stage.place host.workingDirectory) = none) :
    (host.createPortableRelayBackup dataDirectory identity output policy disk).Succeeds ↔
      ∃ fronts now, events.mapM host.eventLine = .ok fronts ∧ host.nowUnixSeconds = .ok now ∧
        host.Fits identity policy events fronts now := by
  constructor
  · rintro ⟨result, h⟩
    unfold PortableHost.createPortableRelayBackup at h
    obtain ⟨⟨made', stage'⟩, hprepared', h⟩ := Except.bind_eq_ok.mp h
    cases hprepared.symm.trans hprepared'
    obtain ⟨⟨later, report⟩, hcreated, _⟩ := Except.bind_eq_ok.mp h
    exact PortableHost.fits_of_create hjson hscan hcreated
  · rintro ⟨fronts, now, hfronts, hnow, hfits⟩
    obtain ⟨written, report, _, hcreated, _⟩ := PortableHost.createPortable_of_fits hjson hmanifests
      hprepared hscan hstaged hmoved haway hfronts hnow hfits
    exact ⟨_, hcreated⟩

namespace Sample

/-- A signed event of a chat in a group. -/
def portableEvent : SignedPocketEvent where
  id := .repeated 'a' (Eq.refl true)
  pubkey := .repeated 'b' (Eq.refl true)
  createdAt := 1714124433
  kind := 1
  tags := []
  content := Text.toBytes "carrots".toList
  sig := ⟨List.replicate 128 'd', List.length_replicate, by simp; rfl⟩

/-- An answer to it. -/
def portableAnswer : SignedPocketEvent :=
  { portableEvent with
    id := .repeated 'c' (Eq.refl true)
    createdAt := 1714124434
    tags := [[Text.toBytes "t".toList, Text.toBytes "harvest".toList]]
    content := Text.toBytes "peas".toList }

/-! ### Stores of few events -/

/-- The events that the stores know and the verifier takes. -/
def knownEvents : List SignedPocketEvent := [portableEvent, portableAnswer]

/-- The bytes of an event: a header and its content. -/
def signedEventLen (event : SignedPocketEvent) : Nat :=
  144 + event.content.length

/-- Events laid out from an offset. -/
def placedFrom : Nat → List SignedPocketEvent → List ScannedEvent
  | _, [] => []
  | start, event :: events =>
    ⟨event, .ofNat start⟩ :: placedFrom (alignEventOffset (start + signedEventLen event)) events

/-- Where the event behind them goes. -/
def endFrom : Nat → List SignedPocketEvent → Nat
  | start, [] => start
  | start, event :: events => endFrom (alignEventOffset (start + signedEventLen event)) events

/-- The events of a map end at or behind where they begin. -/
theorem le_endFrom (start : Nat) (events : List SignedPocketEvent) :
    start ≤ endFrom start events := by
  induction events generalizing start with
  | nil => exact Nat.le_refl start
  | cons event events ih =>
    have halign := (alignEventOffset_bounds (start + signedEventLen event)).1
    exact le_trans (le_trans (Nat.le_add_right _ _) halign) (ih _)

/-- The end of two parts together is the end of the second begun at the end of the first. -/
theorem endFrom_append (start : Nat) (events more : List SignedPocketEvent) :
    endFrom start (events ++ more) = endFrom (endFrom start events) more := by
  induction events generalizing start with
  | nil => rfl
  | cons event events ih => exact ih _

/-- The places of two parts together are the places of the first, and those of the second begun at
its end. -/
theorem placedFrom_append (start : Nat) (events more : List SignedPocketEvent) :
    placedFrom start (events ++ more) =
      placedFrom start events ++ placedFrom (endFrom start events) more := by
  induction events generalizing start with
  | nil => rfl
  | cons event events ih => exact congrArg (_ :: ·) (ih _)

/-- Events that end in memory are laid out there. -/
theorem laid_placedFrom {start : Nat} {events : List SignedPocketEvent}
    (h : endFrom start events ≤ maxMemoryBytes) :
    Laid (fun stored : ScannedEvent => stored.storeOffset.toNat)
        (fun stored => alignEventOffset (stored.storeOffset.toNat + signedEventLen stored.event))
        start (placedFrom start events) ∧
      frontier (fun stored : ScannedEvent =>
        alignEventOffset (stored.storeOffset.toNat + signedEventLen stored.event)) start
        (placedFrom start events) = endFrom start events ∧
      ∀ stored ∈ placedFrom start events,
        stored.storeOffset.toNat + signedEventLen stored.event ≤ maxMemoryBytes := by
  induction events generalizing start with
  | nil => exact ⟨.nil, rfl, fun _ hstored => absurd hstored List.not_mem_nil⟩
  | cons event events ih =>
    have hend := le_endFrom (alignEventOffset (start + signedEventLen event)) events
    have halign := (alignEventOffset_bounds (start + signedEventLen event)).1
    have hwithin : start + signedEventLen event ≤ maxMemoryBytes :=
      le_trans halign (le_trans hend h)
    have hstart : (UInt64.ofNat start).toNat = start :=
      toNat_ofNat_of_memory (le_trans (Nat.le_add_right _ _) hwithin)
    obtain ⟨hlaid, hfrontier, hmemory⟩ := ih h
    have hnext : alignEventOffset ((UInt64.ofNat start).toNat + signedEventLen event) =
        alignEventOffset (start + signedEventLen event) := by
      rw [hstart]
    refine ⟨.cons hstart (hnext ▸ hlaid), ?_, List.forall_mem_cons.mpr ⟨?_, hmemory⟩⟩
    · rw [placedFrom, frontier_cons, hnext]
      exact hfrontier
    · rw [hstart]
      exact hwithin

/-- The name of the event map's file. -/
def eventMapName : EntryName :=
  ⟨[0x65, 0x76, 0x65, 0x6e, 0x74, 0x2e, 0x6d, 0x61, 0x70], by decide +kernel⟩

/-- A new data directory has no file of events. -/
theorem at?_eventMap_empty :
    (FileTree.Directory.empty : DataDirectory).tree.at? [eventMapName] ≠ some .directory := by
  rw [FileTree.Directory.at?_empty (List.cons_ne_nil _ _)]
  exact (Option.some_ne_none _).symm

/-- The directory of the map is there. -/
theorem at?_above_eventMap : (FileTree.Directory.empty : DataDirectory).tree.at?
    ([eventMapName] : Place).dropLast = some .directory :=
  FileTree.at?_nil

/-- A data directory with an event map, which is kept as the numbers of the events it holds. -/
def holding (eventMap : List UInt8) : DataDirectory :=
  (FileTree.Directory.empty.tree.put [eventMapName] (.file eventMap) at?_above_eventMap
    at?_eventMap_empty).below []

/-- The map's file holds the bytes of the map. -/
theorem file?_holding (eventMap : List UInt8) :
    (holding eventMap).tree.file? [eventMapName] = some eventMap := by
  rw [FileTree.file?_eq_some, holding, FileTree.at?_below (List.cons_ne_nil _ _), FileTree.at?_put]
  exact if_pos rfl

/-- The event map of a data directory. -/
def eventMapOf (directory : DataDirectory) : Except String (List UInt8) :=
  Except.okOr (directory.tree.file? [eventMapName]) "no event map"

/-- The events of a map, when it is in memory. -/
def eventsOfMap (eventMap : List UInt8) : Except String (List SignedPocketEvent) := do
  let events ← eventMap.mapM fun number =>
    Except.okOr knownEvents[number.toNat]? "no such event"
  if endFrom eventMapStartOffset events ≤ maxMemoryBytes then .ok events else .error "map full"

/-- The events of a data directory at their places. -/
def heldEvents (directory : DataDirectory) : Except String (List ScannedEvent) := do
  let eventMap ← eventMapOf directory
  let events ← eventsOfMap eventMap
  return placedFrom eventMapStartOffset events

/-- A map is read exactly when each of its bytes is the number of an event of the sample and the
events fit into the memory. -/
theorem eventsOfMap_eq_ok {eventMap : List UInt8} {events : List SignedPocketEvent} :
    eventsOfMap eventMap = .ok events ↔
      List.Forall₂ (fun number event => knownEvents[number.toNat]? = some event) eventMap events ∧
        endFrom eventMapStartOffset events ≤ maxMemoryBytes := by
  unfold eventsOfMap
  rw [Except.bind_eq_ok]
  constructor
  · rintro ⟨read, hread, h⟩
    rw [Except.mapM_eq_ok] at hread
    split at h
    · next hfits =>
      cases h
      exact ⟨hread.imp fun _ _ hknown => Except.okOr_eq_ok.mp hknown, hfits⟩
    · cases h
  · rintro ⟨hread, hfits⟩
    refine ⟨events, Except.mapM_eq_ok.mpr ?_, if_pos hfits⟩
    exact hread.imp fun _ _ hknown => Except.okOr_eq_ok.mpr hknown

/-- A directory holds events exactly when its map's file is read into them. -/
theorem heldEvents_eq_ok {directory : DataDirectory} {stored : List ScannedEvent} :
    heldEvents directory = .ok stored ↔ ∃ eventMap events, eventMapOf directory = .ok eventMap ∧
      eventsOfMap eventMap = .ok events ∧ stored = placedFrom eventMapStartOffset events := by
  unfold heldEvents
  rw [Except.bind_eq_ok]
  constructor
  · rintro ⟨eventMap, hmap, h⟩
    obtain ⟨events, hevents, h⟩ := Except.bind_eq_ok.mp h
    cases h
    exact ⟨eventMap, events, hmap, hevents, rfl⟩
  · rintro ⟨eventMap, events, hmap, hevents, rfl⟩
    exact ⟨eventMap, hmap, Except.bind_eq_ok.mpr ⟨events, hevents, rfl⟩⟩

/-- What a data directory holds is laid out in memory. -/
theorem laid_of_held {directory : DataDirectory} {stored : List ScannedEvent}
    (h : heldEvents directory = .ok stored) :
    Laid (fun stored : ScannedEvent => stored.storeOffset.toNat)
        (fun stored => alignEventOffset (stored.storeOffset.toNat + signedEventLen stored.event))
        eventMapStartOffset stored ∧
      frontier (fun stored : ScannedEvent =>
        alignEventOffset (stored.storeOffset.toNat + signedEventLen stored.event))
        eventMapStartOffset stored ≤ maxMemoryBytes ∧
      ∀ item ∈ stored, item.storeOffset.toNat + signedEventLen item.event ≤ maxMemoryBytes := by
  obtain ⟨_, events, _, hevents, rfl⟩ := heldEvents_eq_ok.mp h
  obtain ⟨_, hfits⟩ := eventsOfMap_eq_ok.mp hevents
  obtain ⟨hlaid, hfrontier, hmemory⟩ := laid_placedFrom hfits
  exact ⟨hlaid, hfrontier.trans_le hfits, hmemory⟩

/-- Stores that hold known events, each once. -/
def fewEventStores : PocketStores where
  opened directory :=
    .ok (if directory.tree.file? [eventMapName] = none then holding [] else directory)
  synced directory := .ok directory
  storeEvent directory event := do
    let eventMap ← eventMapOf directory
    let number := UInt8.ofNat (knownEvents.idxOf event)
    if knownEvents[number.toNat]? = some event ∧ number ∉ eventMap ∧
        (eventsOfMap (eventMap ++ [number])).Succeeds then
      .ok (holding (eventMap ++ [number]))
    else
      .error "event refused"
  eventBytes directory := do
    let stored ← heldEvents directory
    return .ofNat (frontier (fun stored : ScannedEvent =>
      alignEventOffset (stored.storeOffset.toNat + signedEventLen stored.event))
      eventMapStartOffset stored)
  eventByOffset directory offset := do
    let stored ← heldEvents directory
    EventScan.eventAt (fun stored => stored.storeOffset.toNat) ScannedEvent.event stored offset
  eventLen := signedEventLen
  inMemory {directory offset event} h := by
    obtain ⟨stored, hstored, h⟩ := Except.bind_eq_ok.mp h
    obtain ⟨item, hitem, hoffset, rfl⟩ := EventScan.eventAt_eq_ok h
    have hmemory := (laid_of_held hstored).2.2 item hitem
    rw [UInt64.ofNat_toNat] at hoffset
    subst hoffset
    exact ⟨Nat.lt_add_right _ (by decide), hmemory⟩

/-! ### A host and its disk -/

/-- What the sample store scans to. -/
def portableEvents : List ScannedEvent := [⟨portableAnswer, 8⟩, ⟨portableEvent, 160⟩]

/-- A host whose verifier takes the known events only. -/
def portableHost : PortableHost where
  workingDirectory := []
  sha256 contents := [UInt8.ofNat contents.length]
  json := compactJson
  manifests := PortableRelayBackupManifest.form
  utf8Error _ := "invalid utf-8 sequence".toList
  parsePocketEventJson := SignedPocketEvent.ofText
  verify event :=
    if event ∈ knownEvents then .ok () else .error "signature verification failed".toList
  stores := fewEventStores
  tangleRelayVersion := "0.1.0".toList
  processId := 7
  nonce := .ok 1
  nowUnixSeconds := .ok 1714124440

/-- The sample host reads back the events that it printed. -/
theorem portableHost_readsEvents : portableHost.ReadsEvents :=
  PortableHost.readsEvents_of_compact rfl rfl

/-- The relay that the sample backs up. -/
def portableIdentity : PortableRelayBackupIdentity :=
  ⟨"wss://relay.example".toList, by decide⟩

/-- How long a line and a file of the sample's backup may be. -/
def portablePolicy : PortableRelayBackupPolicy :=
  ⟨10, 4096, 65536, by decide⟩

/-- Where the sample's store is. -/
def storePath : OsPath := .ofText "/data".toList

/-- Where the sample's backup goes. -/
def firstBackup : OsPath := .ofText "/backups/first".toList

/-- Where that backup is prepared. -/
def firstStage : OsPath := .ofText "/backups/.first.stage-7-1".toList

/-- Where the sample's events are restored to. -/
def copyPath : OsPath := .ofText "/copy".toList

/-- The last part of that path, as the entry it makes. -/
def copyName : EntryName := ⟨[0x63, 0x6f, 0x70, 0x79], by decide +kernel⟩

/-- The entry under which the restored events are prepared. -/
def copyStageName : EntryName :=
  ⟨(Text.toBytes ".copy.stage-7-1".toList), by decide +kernel⟩

/-- A disk with a store that holds both events, the later one first. -/
def seededDisk : Except IoError Disk := do
  let disk ← Disk.createDirAll FileTree.Directory.empty.tree [] storePath
  disk.write [] (.ofText "/data/event.map".toList) [1, 0]

/-- What a backup does before it writes. -/
def backupStart : Except Text (Disk × Disk × OsPath × Disk × List ScannedEvent) := do
  let disk ← seededDisk.mapError fun error => error.message.toList
  let (made, stage) ← portableHost.prepareBackup disk firstBackup
  let opened ← portableHost.openStore storePath made
  let base ← portableHost.onStore portableHost.stores.synced storePath opened
  return (disk, made, stage, base, ← portableHost.scanEvents storePath base)

/-- The stage stands beside the store and can be moved, and the root holds no copy. -/
def startsBeside (start : Except Text (Disk × Disk × OsPath × Disk × List ScannedEvent)) : Bool :=
  match start with
  | .ok (_, made, stage, base, events) => stage = firstStage && events = portableEvents &&
      made.find [] storePath = .ok (storePath.place []) && made.isDir [] storePath &&
      match base.renameDirectory [] firstStage firstBackup with
      | .ok moved => moved.at? (firstStage.place []) = none &&
          base.at? [copyName] = none && base.at? [copyStageName] = none
      | .error _ => false
  | .error _ => false

/-- The lines of the events are short, and so is the manifest. -/
def printsShort (lines : Except Text (List (List UInt8))) : Bool :=
  match lines with
  | .ok fronts => fronts.all (fun front => front.length ≤ 4096) &&
      (PortableHost.fileOf fronts).length ≤ 65536 &&
      (portableHost.manifests.toText (portableHost.manifestOf portableIdentity portableEvents
        (PortableHost.fileOf fronts) 1714124440)).toBytes.length ≤ 65536
  | .error _ => false

end Sample

section
open Sample

/-- The sample store is scanned, beside an empty stage that can be moved. -/
theorem started_beside : ∃ disk made base moved,
    portableHost.prepareBackup disk firstBackup = .ok (made, firstStage) ∧
      portableHost.Scans storePath made base portableEvents ∧
      portableHost.Staged base firstStage ∧
      base.renameDirectory [] firstStage firstBackup = .ok moved ∧
      moved.at? (firstStage.place []) = none ∧
      base.at? [copyName] = none ∧ base.at? [copyStageName] = none := by
  have hchecked : startsBeside backupStart = true := by
    decide +kernel
  cases hstart : backupStart with
  | error error =>
    rw [hstart] at hchecked
    cases hchecked
  | ok start =>
    obtain ⟨disk, made, stage, base, events⟩ := start
    rw [hstart] at hchecked
    simp only [startsBeside, Bool.and_eq_true, decide_eq_true_eq] at hchecked
    obtain ⟨⟨⟨⟨rfl, rfl⟩, hfind⟩, hdirectory⟩, hrename⟩ := hchecked
    unfold backupStart at hstart
    obtain ⟨disk', _, hstart⟩ := Except.bind_eq_ok.mp hstart
    obtain ⟨⟨made', stage'⟩, hprepared, hstart⟩ := Except.bind_eq_ok.mp hstart
    obtain ⟨opened, hopened, hstart⟩ := Except.bind_eq_ok.mp hstart
    obtain ⟨synced, hsynced, hstart⟩ := Except.bind_eq_ok.mp hstart
    obtain ⟨scanned, hscanned, hstart⟩ := Except.bind_eq_ok.mp hstart
    cases hstart
    obtain ⟨_, hmade⟩ := PortableHost.made_of_prepareBackup hprepared
    have hapart : (firstStage.place []).Apart (storePath.place []) :=
      ⟨by decide +kernel, by decide +kernel⟩
    have hup : .up ∉ firstStage.steps :=
      PortableHost.up_not_mem_steps (by decide +kernel)
    have hstaged : portableHost.Staged opened firstStage := by
      unfold PortableHost.openStore at hopened
      obtain ⟨same, hsame, hopened⟩ := Except.bind_eq_ok.mp hopened
      obtain ⟨place, hplace, hat⟩ := Disk.isDir_iff.mp hdirectory
      cases hfind.symm.trans hplace
      obtain ⟨same', hsame', hsameAt⟩ :=
        @PortableHost.createDirAll_of_find portableHost _ _ _ hfind hat
      cases hsame'.symm.trans (Except.mapError_eq_ok.mp hsame)
      exact (hmade.toStaged.of_same hsameAt).beside hup hapart hopened
    cases hmoved : base.renameDirectory [] firstStage firstBackup with
    | error error =>
      rw [hmoved] at hrename
      cases hrename
    | ok moved =>
      rw [hmoved] at hrename
      simp only [Bool.and_eq_true, decide_eq_true_eq] at hrename
      obtain ⟨⟨haway, hcopy⟩, hcopyStage⟩ := hrename
      exact ⟨disk, made, base, moved, hprepared, ⟨opened, hopened, hsynced, hscanned⟩,
        hstaged.beside hup hapart hsynced, hmoved, haway, hcopy, hcopyStage⟩

/-- The policy and the verifier take both events. -/
theorem portableEvents_fit : ∃ fronts now,
    portableEvents.mapM portableHost.eventLine = .ok fronts ∧
      portableHost.nowUnixSeconds = .ok now ∧
      portableHost.Fits portableIdentity portablePolicy portableEvents fronts now := by
  have hchecked : printsShort (portableEvents.mapM portableHost.eventLine) = true := by
    decide +kernel
  cases hlines : portableEvents.mapM portableHost.eventLine with
  | error error =>
    rw [hlines] at hchecked
    cases hchecked
  | ok fronts =>
    rw [hlines] at hchecked
    simp only [printsShort, Bool.and_eq_true, decide_eq_true_eq, List.all_eq_true] at hchecked
    obtain ⟨⟨hshort, hsmall⟩, hmanifest⟩ := hchecked
    refine ⟨fronts, 1714124440, rfl, rfl, ?_⟩
    constructor
    · decide
    · exact hshort
    · exact hsmall
    · exact hmanifest
    · intro stored hstored
      have hknown : stored.event ∈ knownEvents := by
        rcases List.mem_pair.mp hstored with rfl | rfl
        · exact List.mem_cons_of_mem _ List.mem_cons_self
        · exact List.mem_cons_self
      exact ⟨(), if_pos hknown⟩
    · decide
    · decide

/-- A backup of the sample is made: the two events are printed, written and read back. -/
theorem portableBackup_made_firstBackup : ∃ disk,
    (portableHost.createPortableRelayBackup storePath portableIdentity firstBackup portablePolicy
      disk).Succeeds := by
  obtain ⟨disk, made, base, moved, hprepared, hscan, hstaged, hmoved, haway, _⟩ := started_beside
  exact ⟨disk, (portableBackup_made_iff portableHost_readsEvents
    PortableRelayBackupManifest.form_readsBack portableIdentity portablePolicy hprepared
      hscan hstaged
    hmoved haway).mpr portableEvents_fit⟩

end

end Tangle
