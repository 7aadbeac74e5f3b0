import Tangle.Host.Restores
import Tangle.Host.BackupDocuments

/-!
# Backups that are restored

What a backup writes (`BackupHost.Bundle`): a copy of the data directory, and next to it the list of
the checksums of the files there and the manifest with its digest. A restore of the same bundle
passes every check, and its copy succeeds because the backup's did.
-/

namespace Tangle

/-- The names of what a bundle consists of. -/
def pocketStoreName : EntryName := ⟨pocketStoreDir.toBytes, by decide +kernel⟩
def redactedName : EntryName := ⟨redactedTenantConfig.toBytes, by decide +kernel⟩
def checksumName : EntryName := ⟨checksumManifest.toBytes, by decide +kernel⟩
def manifestName : EntryName := ⟨backupManifest.toBytes, by decide +kernel⟩

/-- The path of the list of checksums is one name. -/
theorem ofText_checksumManifest : OsPath.ofText checksumManifest = .ofName checksumName := rfl

/-- No two of the names are the same. -/
theorem names_distinct : pocketStoreName ≠ redactedName ∧ pocketStoreName ≠ checksumName ∧
    pocketStoreName ≠ manifestName ∧ checksumName ≠ redactedName ∧ checksumName ≠ manifestName ∧
    redactedName ≠ manifestName := by
  refine ⟨?_, ?_, ?_, ?_, ?_, ?_⟩ <;>
  · intro h
    exact absurd (congrArg EntryName.bytes h) (by decide +kernel)

namespace BackupHost

variable {host : BackupHost} {disk later : Disk} {path : OsPath} {place : Place} {name : EntryName}

/-! ## Writing a bundle -/

/-- A file that is written in a directory is all that changes. -/
theorem writeJsonFile_at? {raw : Text} (hwalk : disk.walk host.workingDirectory path = .ok place)
    (hdirectory : disk.at? place = some .directory)
    (h : host.writeJsonFile disk (path.join (.ofName name)) raw = .ok later) :
    ∀ other, later.at? other =
      if other = place ++ [name] then some (.file raw.toBytes) else disk.at? other := by
  obtain ⟨found, hfound, _, hat⟩ := Disk.write_eq_ok (Except.mapError_eq_ok.mp h)
  cases (Disk.find_join_name hwalk hdirectory).symm.trans hfound
  exact hat

/-- A path of a listed file is spelled from names that lead to the file. -/
structure ListedFrom (host : BackupHost) (disk : Disk) (root : Place) (listed : ChecksumFile)
    (names : List EntryName) : Prop where
  spelled : listed.path.toBytes = [separator].intercalate (names.map EntryName.bytes)
  found : ∃ contents, disk.file? (root ++ names) = some contents ∧ host.Matches contents listed

/-- The text of a path is spelled from its names. -/
theorem relativePathString_toBytes {names : List EntryName} {relative : Text}
    (h : relativePathString names = .ok relative) :
    relative.toBytes = [separator].intercalate (names.map EntryName.bytes) := by
  unfold relativePathString at h
  obtain ⟨parts, hparts, hrelative⟩ := Except.bind_eq_ok.mp h
  cases hrelative
  rw [Text.toBytes_intercalate]
  congr 1
  have hall : List.Forall₂ (fun name part => part.toBytes = name.bytes) names parts :=
    (Except.mapM_eq_ok.mp hparts).imp fun _ _ hpart =>
      Text.toBytes_of_ofBytes? (Except.okOr_eq_ok.mp hpart)
  clear h hparts
  induction hall with
  | nil => rfl
  | cons hpart _ ih => rw [List.map_cons, List.map_cons, ih, hpart]

/-- **What is listed was found.** Each listed file was collected below the directory and has the
listed digest and size. -/
theorem collectChecksums_listed {files : List ChecksumFile}
    (h : host.collectChecksums disk path = .ok files) :
    ∀ listed ∈ files, ∃ names,
      host.ListedFrom disk (path.place host.workingDirectory) listed names := by
  unfold collectChecksums at h
  obtain ⟨collected, _, h⟩ := Except.bind_eq_ok.mp h
  intro listed hin
  obtain ⟨names, _, hfile⟩ := Except.mapM_mem h listed hin
  obtain ⟨relative, hrelative, hfile⟩ := Except.bind_eq_ok.mp hfile
  obtain ⟨⟨digest, size⟩, hdigest, hfile⟩ := Except.bind_eq_ok.mp hfile
  cases hfile
  obtain ⟨contents, hread, hsha, hsize⟩ := fileSha256Hex_eq_ok.mp hdigest
  obtain ⟨place, hfind, hcontents⟩ := Disk.read_eq_ok.mp hread
  have hplace := Disk.walk_place (Disk.find_eq_ok.mp hfind).2
  rw [Disk.place_foldl_join] at hplace
  subst hplace
  exact ⟨names, relativePathString_toBytes hrelative, contents, hcontents, hsha, hsize⟩

/-- What a backup that succeeds has done: the copy, the redacted configuration, the list of
checksums with its digest, and the manifest that names them, in this order. -/
theorem backupTenant_cases {request : TenantBackupRequest} {tenant : BackupTenantConfig}
    {report : TenantBackupReport} {written prepared : Disk}
    (hload : host.loadSelectedTenantConfig request.configPath request.tenantId = .ok tenant)
    (hprepared : host.prepareEmptyDirectory disk (.ofText request.output) "backup output" =
      .ok prepared)
    (h : host.backupTenant request disk = .ok (written, report)) :
    tenant.backupEnabled = true ∧ ∃ copied redacted checked files manifest size raw,
      host.copyDirectory tenant.dataDirectory
        ((OsPath.ofText request.output).join (.ofName pocketStoreName)) prepared = .ok copied ∧
      host.writeJsonFile copied ((OsPath.ofText request.output).join (.ofName redactedName)) raw =
        .ok redacted ∧
      host.collectChecksums redacted (.ofText request.output) = .ok files ∧
      host.writeJsonFile redacted ((OsPath.ofText request.output).join (.ofName checksumName))
        (host.checksums.toText ⟨checksumSchema, "sha256".toList, files⟩) = .ok checked ∧
      host.writeJsonFile checked ((OsPath.ofText request.output).join (.ofName manifestName))
        (host.manifests.toText manifest) = .ok written ∧
      host.fileSha256Hex checked ((OsPath.ofText request.output).join (.ofName checksumName)) =
        .ok (manifest.checksumManifestSha256, size) ∧
      manifest.schema = backupSchema ∧ manifest.source.tenantId = tenant.tenantId ∧
      manifest.store.snapshotPath = pocketStoreDir ∧
      manifest.checksumManifestPath = checksumManifest := by
  unfold backupTenant at h
  obtain ⟨_, _, h⟩ := Except.bind_eq_ok.mp h
  obtain ⟨tenant', htenant, h⟩ := Except.bind_eq_ok.mp h
  cases hload.symm.trans htenant
  obtain ⟨_, henabled, h⟩ := Except.bind_eq_ok.mp h
  rw [refuseIf_eq_ok, Bool.not_eq_false] at henabled
  obtain ⟨prepared', hprepared', h⟩ := Except.bind_eq_ok.mp h
  cases hprepared.symm.trans hprepared'
  obtain ⟨copied, hcopied, h⟩ := Except.bind_eq_ok.mp h
  obtain ⟨raw, _, h⟩ := Except.bind_eq_ok.mp h
  obtain ⟨redacted, hredacted, h⟩ := Except.bind_eq_ok.mp h
  obtain ⟨files, hfiles, h⟩ := Except.bind_eq_ok.mp h
  obtain ⟨checked, hchecked, h⟩ := Except.bind_eq_ok.mp h
  obtain ⟨⟨digest, size⟩, hdigest, h⟩ := Except.bind_eq_ok.mp h
  obtain ⟨source, hsource, h⟩ := Except.bind_eq_ok.mp h
  obtain ⟨createdAt, _, h⟩ := Except.bind_eq_ok.mp h
  obtain ⟨written', hwritten, h⟩ := Except.bind_eq_ok.mp h
  cases h
  obtain ⟨pubkey, _, hsource⟩ := Except.bind_eq_ok.mp hsource
  cases hsource
  exact ⟨henabled, copied, redacted, checked, files, _, size, raw, hcopied, hredacted, hfiles,
    hchecked, hwritten, hdigest, rfl, rfl, rfl, rfl⟩

/-! ## The bundle -/

/-- What a backup leaves at a place: a copy of the data directory, the list of the checksums of
files there, and the manifest with the digest of the list. -/
structure Bundle (host : BackupHost) (tenantId : Text) (disk : Disk) (data : Place) (now : Disk)
    (root : Place) (manifest : TenantBackupManifest) (files : List ChecksumFile) : Prop where
  directory : now.at? root = some .directory
  snapshot : now.at? (root ++ [pocketStoreName]) = some .directory
  copied : ∀ rest, now.file? (root ++ [pocketStoreName] ++ rest) = disk.file? (data ++ rest)
  shallow : ∀ rest, now.at? (root ++ [pocketStoreName] ++ rest) = some .directory →
    rest.length < host.depth
  reached : ∀ rest, now.at? (root ++ [pocketStoreName] ++ rest) ≠ none → rest.length ≤ host.depth
  manifestFile : now.file? (root ++ [manifestName]) = some (host.manifests.toText manifest).toBytes
  checksumFile : now.file? (root ++ [checksumName]) =
    some (host.checksums.toText ⟨checksumSchema, "sha256".toList, files⟩).toBytes
  listed : ∀ listed ∈ files, ∃ names, names ≠ [] ∧ host.ListedFrom now root listed names
  schema : manifest.schema = backupSchema
  tenant : manifest.source.tenantId = tenantId
  snapshotPath : manifest.store.snapshotPath = pocketStoreDir
  checksumPath : manifest.checksumManifestPath = checksumManifest
  digest : manifest.checksumManifestSha256 = lowerHex
    (host.sha256 (host.checksums.toText ⟨checksumSchema, "sha256".toList, files⟩).toBytes)
  size : (host.checksums.toText ⟨checksumSchema, "sha256".toList, files⟩).toBytes.length < 2 ^ 64

/-- A bundle is what stands below its place. -/
theorem Bundle.moved {tenantId : Text} {data root root' : Place} {now now' : Disk}
    {manifest : TenantBackupManifest} {files : List ChecksumFile}
    (h : host.Bundle tenantId disk data now root manifest files)
    (hsame : ∀ rest, now'.at? (root' ++ rest) = now.at? (root ++ rest)) :
    host.Bundle tenantId disk data now' root' manifest files := by
  have hfile : ∀ rest, now'.file? (root' ++ rest) = now.file? (root ++ rest) := fun rest =>
    FileTree.file?_congr (hsame rest)
  have hroot := hsame []
  rw [List.append_nil, List.append_nil] at hroot
  refine { h with
    directory := hroot.trans h.directory
    snapshot := (hsame _).trans h.snapshot
    copied := fun rest => ?_
    shallow := fun rest hrest => h.shallow rest ?_
    reached := fun rest hrest => h.reached rest ?_
    manifestFile := (hfile _).trans h.manifestFile
    checksumFile := (hfile _).trans h.checksumFile
    listed := fun listed hin => ?_ }
  · rw [List.append_assoc, hfile, ← List.append_assoc]
    exact h.copied rest
  · rw [List.append_assoc, ← hsame, ← List.append_assoc]
    exact hrest
  · rw [List.append_assoc, ← hsame, ← List.append_assoc]
    exact hrest
  · obtain ⟨names, hne, hspelled, contents, hcontents, hmatches⟩ := h.listed listed hin
    exact ⟨names, hne, hspelled, contents, (hfile names).trans hcontents, hmatches⟩

/-- A directory in which another could be made was there. -/
theorem walk_of_createDirAll {prepared made : Disk}
    (hprepared : disk.createDirAll host.workingDirectory path = .ok prepared)
    (hmade : prepared.createDirAll host.workingDirectory (path.join (.ofName name)) = .ok made) :
    prepared.walk host.workingDirectory path = .ok (path.place host.workingDirectory) ∧
      prepared.at? (path.place host.workingDirectory) = some .directory := by
  by_cases hempty : path.bytes = []
  · -- the path of nothing leads to the working directory
    have hplace : path.place host.workingDirectory = path.start host.workingDirectory := by
      rw [OsPath.place, OsPath.steps, hempty]
      rfl
    have hstart : prepared.at? (path.start host.workingDirectory) = some .directory := by
      unfold Disk.createDirAll at hmade
      rw [if_neg (OsPath.join_bytes_ne_nil name.isEntryName.1)] at hmade
      obtain ⟨last, hfold, _⟩ := Except.bind_eq_ok.mp hmade
      obtain ⟨first, _, hjoin⟩ := @OsPath.steps_join path _ (OsPath.isAbsolute_ofName name)
      have hne : (path.join (.ofName name)).steps ≠ [] := by
        rw [hjoin, OsPath.steps_ofName]
        exact List.append_ne_nil_of_right_ne_nil _ (List.cons_ne_nil _ _)
      rw [OsPath.start_join _ (OsPath.isAbsolute_ofName name)] at hfold
      cases hsteps : (path.join (.ofName name)).steps with
      | nil => exact absurd hsteps hne
      | cons step steps =>
        rw [hsteps] at hfold
        obtain ⟨next, hnext, _⟩ := Except.foldlM_cons_ok.mp hfold
        exact (Disk.enter_eq_ok.mp (Disk.makeStep_grows hnext).2).1
    rw [hplace]
    refine ⟨?_, hstart⟩
    rw [Disk.walk, OsPath.steps, hempty]
    refine Except.bind_eq_ok.mpr ⟨_, Disk.enter_eq_ok.mpr ⟨hstart, ?_, rfl⟩, rfl⟩
    intro hinvalid
    cases hinvalid
  · obtain ⟨place, hwalk, hdirectory⟩ := (Disk.createDirAll_grows hprepared).2 hempty
    cases Disk.walk_place hwalk
    exact ⟨hwalk, hdirectory⟩

/-- The data directory is copied into the empty output directory. -/
theorem copied_of_backup {source : OsPath} {prepared copied : Disk}
    (hprepared : disk.createDirAll host.workingDirectory path = .ok prepared)
    (hempty : ∀ name, prepared.at? (path.place host.workingDirectory ++ [name]) = none)
    (hcopy : host.copyDirectory source (path.join (.ofName name)) prepared = .ok copied) :
    prepared.walk host.workingDirectory path = .ok (path.place host.workingDirectory) ∧
    prepared.at? (path.place host.workingDirectory) = some .directory ∧
    KeepsDirectories prepared copied ∧
    Copied prepared copied (source.place host.workingDirectory)
      (path.place host.workingDirectory ++ [name]) ∧
    copied.at? (path.place host.workingDirectory ++ [name]) = some .directory ∧
    ∀ rest, prepared.at? (source.place host.workingDirectory ++ rest) = some .directory →
      rest.length < host.depth := by
  unfold copyDirectory at hcopy
  cases hdepth : host.depth with
  | zero =>
    rw [hdepth] at hcopy
    cases hcopy
  | succ depth =>
    rw [hdepth] at hcopy
    obtain ⟨S, made, hS, hSdirectory, hmade, hnames⟩ := copyDirectoryWith_cases hcopy
    cases Disk.walk_place hS
    obtain ⟨hwalk, hdirectory⟩ := walk_of_createDirAll hprepared hmade
    have htarget := @Disk.walk_join_name _ _ _ _ name hwalk hdirectory
    have hbytes := @OsPath.join_bytes_ne_nil path (.ofName name) name.isEntryName.1
    have hbelow : ∀ rest, prepared.at? (path.place host.workingDirectory ++ [name] ++
        rest) = none :=
      fun rest => FileTree.at?_below_of_none (hempty name)
    have hapart : Place.Apart (source.place host.workingDirectory)
        (path.place host.workingDirectory ++ [name]) := by
      have hnot : ¬ path.place host.workingDirectory ++ [name] <+:
          source.place host.workingDirectory := by
        rintro ⟨rest, hrest⟩
        rw [← hrest, hbelow] at hSdirectory
        cases hSdirectory
      refine ⟨fun habove => ?_, hnot⟩
      refine copyDirectoryWith_below hS htarget hbytes habove ?_ hcopy
      intro heq
      exact hnot (heq ▸ List.prefix_refl _)
    obtain ⟨hkeeps, hcopied⟩ := copyDirectoryWith_copied _ hcopy hS htarget hbytes hapart
      (fun rest => FileTree.file?_of_none (hbelow rest))
    refine ⟨hwalk, hdirectory, hkeeps, hcopied, ?_, fun rest => copyDirectoryWith_depth hS hcopy⟩
    have hmadeTarget := made_at? htarget hbytes hmade (path.place host.workingDirectory ++ [name])
    rw [if_pos rfl] at hmadeTarget
    exact Except.foldlM_invariant
      (fun now : Disk => now.at? (path.place host.workingDirectory ++ [name]) = some .directory)
      (fun now name next _ hnow hnext => copyEntry_keepsDirectories
        (fun h => copyDirectoryWith_keepsDirectories h) hnext _ hnow) hmadeTarget hnames

/-- A place below a directory that is not too deep is not too deep. -/
theorem length_le_of_at? {data : Place} {rest : Place}
    (hdepth : ∀ rest, disk.at? (data ++ rest) = some .directory → rest.length < host.depth)
    (h : disk.at? (data ++ rest) ≠ none) : rest.length ≤ host.depth := by
  cases List.eq_nil_or_concat rest with
  | inl hnil =>
    rw [hnil]
    exact Nat.zero_le _
  | inr hconcat =>
    obtain ⟨parent, last, rfl⟩ := hconcat
    rw [List.concat_eq_append, ← List.append_assoc] at h
    have hparent := hdepth parent (FileTree.directory_of_child h)
    rw [List.concat_eq_append, List.length_append, List.length_singleton]
    exact hparent

/-- A backup into an empty directory leaves a bundle there. -/
theorem bundle_of_backup {request : TenantBackupRequest} {tenant : BackupTenantConfig}
    {report : TenantBackupReport} {written prepared : Disk}
    (hload : host.loadSelectedTenantConfig request.configPath request.tenantId = .ok tenant)
    (hprepared : host.prepareEmptyDirectory disk (.ofText request.output) "backup output" =
      .ok prepared)
    (hempty : ∀ name, prepared.at?
      ((OsPath.ofText request.output).place host.workingDirectory ++ [name]) = none)
    (h : host.backupTenant request disk = .ok (written, report)) :
    ∃ manifest files, host.Bundle tenant.tenantId disk
      (tenant.dataDirectory.place host.workingDirectory) written
      ((OsPath.ofText request.output).place host.workingDirectory) manifest files := by
  obtain ⟨_, copied, redacted, checked, files, manifest, size, raw, hcopy, hredacted, hfiles,
    hchecked, hwritten, hdigest, hschema, htenant, hsnapshot, hpath⟩ :=
    backupTenant_cases hload hprepared h
  have hcreated := prepareEmptyDirectory_created hprepared
  have hgrows := (Disk.createDirAll_grows hcreated).1
  obtain ⟨hwalk, hdirectory, hkeeps, hcopied, hpocket, hdepth⟩ :=
    copied_of_backup hcreated hempty hcopy
  obtain ⟨hpr, hpc, hpm, hcr, hcm, hrm⟩ := names_distinct
  have hlistedFrom := collectChecksums_listed hfiles
  generalize (OsPath.ofText request.output).place host.workingDirectory = root at *
  have hchild : ∀ {a b : EntryName}, a ≠ b → root ++ [a] ≠ root ++ [b] := by
    intro a b hab heq
    exact hab (List.cons.inj (List.append_cancel_left heq)).1
  have hroot : ∀ name, root ≠ root ++ [name] := fun name heq =>
    List.cons_ne_nil _ _ (List.append_right_eq_self.mp heq.symm)
  -- the three files are written one after the other
  have hredactedAt :=
    writeJsonFile_at? (Disk.walk_mono hkeeps hwalk) (hkeeps _ hdirectory) hredacted
  have hrootRedacted : redacted.at? root = some .directory := by
    rw [hredactedAt, if_neg (hroot _)]
    exact hkeeps _ hdirectory
  have hkeepsRedacted : KeepsDirectories prepared redacted := by
    intro place hplace
    rw [hredactedAt, if_neg]
    · exact hkeeps place hplace
    · rintro rfl
      rw [hempty] at hplace
      cases hplace
  have hcheckedAt := writeJsonFile_at? (Disk.walk_mono hkeepsRedacted hwalk) hrootRedacted hchecked
  have hrootChecked : checked.at? root = some .directory := by
    rw [hcheckedAt, if_neg (hroot _)]
    exact hrootRedacted
  have hkeepsChecked : KeepsDirectories prepared checked := by
    intro place hplace
    rw [hcheckedAt, if_neg]
    · exact hkeepsRedacted place hplace
    · rintro rfl
      rw [hempty] at hplace
      cases hplace
  have hwrittenAt := writeJsonFile_at? (Disk.walk_mono hkeepsChecked hwalk) hrootChecked hwritten
  -- what is copied stays
  have hbelow : ∀ rest, written.at? (root ++ [pocketStoreName] ++ rest) =
      copied.at? (root ++ [pocketStoreName] ++ rest) := by
    intro rest
    have hne : ∀ {name}, pocketStoreName ≠ name →
        ¬ root ++ [pocketStoreName] ++ rest = root ++ [name] := by
      intro name hname heq
      rw [List.append_assoc, List.append_cancel_left_eq, List.singleton_append, List.cons.injEq]
        at heq
      exact hname heq.1
    rw [hwrittenAt, if_neg (hne hpm), hcheckedAt, if_neg (hne hpc), hredactedAt, if_neg (hne hpr)]
  have hprocessed : ∀ rest, copied.at? (root ++ [pocketStoreName] ++ rest) ≠ none →
      prepared.at? (tenant.dataDirectory.place host.workingDirectory ++ rest) ≠ none := by
    intro rest hrest
    rcases hcopied.adds rest hrest with hsource | htarget
    · exact hsource
    · rw [FileTree.at?_below_of_none (hempty _)] at htarget
      exact absurd rfl htarget
  refine ⟨manifest, files, ?_, ?_, fun rest => ?_, fun rest hrest => ?_,
    fun rest hrest => ?_, ?_, ?_,
    fun listed hin => ?_, hschema, htenant, hsnapshot, hpath, ?_, ?_⟩
  · rw [hwrittenAt, if_neg (hroot _)]
    exact hrootChecked
  · have hnil := hbelow []
    rw [List.append_nil] at hnil
    exact hnil.trans hpocket
  · rw [FileTree.file?_congr (hbelow rest), hcopied.below, hgrows.file?_eq]
  · rw [hbelow] at hrest
    refine hdepth rest ?_
    obtain ⟨entry, hentry⟩ := Option.ne_none_iff_exists'.mp
      (hprocessed rest (by rw [hrest]; exact Option.some_ne_none _))
    cases entry with
    | directory => exact hentry
    | file contents =>
      have hfile := hcopied.below rest
      rw [FileTree.file?_eq_some.mpr hentry, FileTree.file?_eq_some, hrest] at hfile
      cases hfile
  · rw [hbelow] at hrest
    exact length_le_of_at? hdepth (hprocessed rest hrest)
  · exact FileTree.file?_eq_some.mpr ((hwrittenAt _).trans (if_pos rfl))
  · refine FileTree.file?_eq_some.mpr ?_
    rw [hwrittenAt, if_neg (hchild hcm), hcheckedAt, if_pos rfl]
  · obtain ⟨names, hspelled, contents, hcontents, hmatches⟩ := hlistedFrom listed hin
    refine ⟨names, ?_, hspelled, contents, ?_, hmatches⟩
    · rintro rfl
      rw [List.append_nil, FileTree.file?_eq_some, hrootRedacted] at hcontents
      cases hcontents
    · -- the files that are written later were not there yet
      have hlater : ∀ {name}, pocketStoreName ≠ name → name ≠ redactedName →
          ¬ root ++ names = root ++ [name] := by
        intro name hpocketName hname heq
        rw [heq, FileTree.file?_eq_some, hredactedAt, if_neg (hchild hname), hcopied.outside,
          hempty] at hcontents
        · cases hcontents
        · exact not_prefix_of_ne hpocketName
      rw [← hcontents]
      refine FileTree.file?_congr ?_
      rw [hwrittenAt, if_neg (hlater hpm (Ne.symm hrm)), hcheckedAt, if_neg (hlater hpc hcr)]
  all_goals
    obtain ⟨contents, hread, hsha, hsize⟩ := fileSha256Hex_eq_ok.mp hdigest
    obtain ⟨place, hfind, hfile⟩ := Disk.read_eq_ok.mp hread
    have hplace := @Disk.find_join_name _ _ _ _ checksumName
      (Disk.walk_mono hkeepsChecked hwalk) hrootChecked
    cases hplace.symm.trans hfind
    rw [FileTree.file?_eq_some, hcheckedAt, if_pos rfl] at hfile
    cases hfile
  · exact hsha.symm
  · exact hsize ▸ size.toNat_lt

/-! ## Restoring it -/

/-- A file that holds a text is read as the text. -/
theorem readToString_of_file {raw : Text} (hfind : disk.find host.workingDirectory path = .ok place)
    (hfile : disk.file? place = some raw.toBytes) : host.readToString disk path = .ok raw := by
  unfold readToString
  rw [Disk.read_eq_ok.mpr ⟨place, hfind, hfile⟩]
  exact Except.okOr_eq_ok.mpr (Text.ofBytes?_toBytes raw)

/-- A listed file passes its check. -/
theorem verifyChecksum_of_listed {names : List EntryName} {listed : ChecksumFile}
    (hwalk : disk.walk host.workingDirectory path = .ok place)
    (hdirectory : disk.at? place = some .directory) (hne : names ≠ [])
    (h : host.ListedFrom disk place listed names) :
    host.verifyChecksum disk path listed = .ok () := by
  obtain ⟨hspelled, contents, hcontents, hmatches⟩ := h
  have hat : disk.at? (place ++ names) ≠ none := by
    rw [FileTree.file?_eq_some.mp hcontents]
    exact Option.some_ne_none _
  have hfind := Disk.find_join_names hne hwalk hdirectory hat
  rw [← hspelled] at hfind
  have hdigest : host.fileSha256Hex disk (path.join (.ofText listed.path)) =
      .ok (listed.sha256, listed.sizeBytes) :=
    fileSha256Hex_eq_ok.mpr
      ⟨contents, Disk.read_eq_ok.mpr ⟨_, hfind, hcontents⟩, hmatches.digest, hmatches.size⟩
  unfold verifyChecksum
  rw [hdigest]
  exact refuseIf_eq_ok.mpr (by simp)

/-- The checks of a restore pass when each of them does. -/
theorem checkBundle_of_checks {tenant : BackupTenantConfig} {manifest : TenantBackupManifest}
    {checksums : ChecksumManifest} {size : UInt64}
    (hmanifest : host.readBackupManifest disk (path.join (.ofText backupManifest)) = .ok manifest)
    (hschema : manifest.schema = backupSchema)
    (htenant : manifest.source.tenantId = tenant.tenantId)
    (hdigest : host.fileSha256Hex disk (path.join (.ofText manifest.checksumManifestPath)) =
      .ok (manifest.checksumManifestSha256, size))
    (hlist : host.readChecksumManifest disk (path.join (.ofText manifest.checksumManifestPath)) =
      .ok checksums)
    (hverify : host.verifyChecksums disk path checksums.files = .ok ()) :
    host.checkBundle tenant path disk = .ok (manifest, checksums) := by
  unfold checkBundle
  rw [hmanifest]
  refine Except.bind_eq_ok.mpr ⟨manifest, rfl, ?_⟩
  rw [refuseIf_eq_ok.mpr (not_not.mpr hschema), refuseIf_eq_ok.mpr (not_not.mpr htenant)]
  refine Except.bind_eq_ok.mpr ⟨(), rfl, Except.bind_eq_ok.mpr ⟨(), rfl, ?_⟩⟩
  dsimp only
  rw [hdigest]
  refine Except.bind_eq_ok.mpr ⟨_, rfl, ?_⟩
  dsimp only
  rw [refuseIf_eq_ok.mpr (not_not.mpr rfl), hlist]
  refine Except.bind_eq_ok.mpr ⟨(), rfl, Except.bind_eq_ok.mpr ⟨_, rfl, ?_⟩⟩
  rw [hverify]
  rfl

/-- A bundle passes the checks of a restore for its tenant. -/
theorem checkBundle_of_bundle {tenant : BackupTenantConfig} {data root : Place}
    {manifest : TenantBackupManifest} {files : List ChecksumFile}
    (hmanifests : host.manifests.ReadsBack) (hchecksums : host.checksums.ReadsBack)
    (hwalk : later.walk host.workingDirectory path = .ok root)
    (h : host.Bundle tenant.tenantId disk data later root manifest files) :
    host.checkBundle tenant path later =
      .ok (manifest, ⟨checksumSchema, "sha256".toList, files⟩) := by
  have hmanifest : host.readBackupManifest later (path.join (.ofText backupManifest)) =
      .ok manifest := by
    have hread := readToString_of_file (Disk.find_join_name hwalk h.directory) h.manifestFile
    exact Except.bind_eq_ok.mpr ⟨_, hread, Except.mapError_eq_ok.mpr (hmanifests manifest)⟩
  have hfind : later.find host.workingDirectory
    (path.join (.ofText manifest.checksumManifestPath)) =
      .ok (root ++ [checksumName]) := by
    rw [h.checksumPath, ofText_checksumManifest]
    exact Disk.find_join_name hwalk h.directory
  have hdigest : host.fileSha256Hex later (path.join (.ofText manifest.checksumManifestPath)) =
      .ok (manifest.checksumManifestSha256, .ofNat (host.checksums.toText
        ⟨checksumSchema, "sha256".toList, files⟩).toBytes.length) :=
    fileSha256Hex_eq_ok.mpr ⟨_, Disk.read_eq_ok.mpr ⟨_, hfind, h.checksumFile⟩, h.digest.symm,
      (UInt64.toNat_ofNat_of_lt' h.size).symm⟩
  have hlist : host.readChecksumManifest later
      (path.join (.ofText manifest.checksumManifestPath)) =
      .ok ⟨checksumSchema, "sha256".toList, files⟩ := by
    have hread := readToString_of_file hfind h.checksumFile
    exact Except.bind_eq_ok.mpr ⟨_, hread, Except.bind_eq_ok.mpr
      ⟨_, Except.mapError_eq_ok.mpr (hchecksums _), Except.bind_eq_ok.mpr
        ⟨(), refuseIf_eq_ok.mpr (not_not.mpr rfl), Except.bind_eq_ok.mpr
          ⟨(), refuseIf_eq_ok.mpr (not_not.mpr rfl), rfl⟩⟩⟩⟩
  have hverify : host.verifyChecksums later path files = .ok () := by
    refine Except.forM_eq_ok.mpr fun listed hin => ?_
    obtain ⟨names, hne, hlisted⟩ := h.listed listed hin
    exact verifyChecksum_of_listed hwalk h.directory hne hlisted
  exact checkBundle_of_checks hmanifest h.schema h.tenant hdigest hlist hverify

/-- The files below a directory that is not too deep are collected. -/
theorem collectFilesWith_succeeds {fuel : Nat} {names : List EntryName}
    (hfind : disk.find host.workingDirectory path = .ok place)
    (hat : disk.at? (place ++ names) ≠ none)
    (hdepth : ∀ rest, disk.at? (place ++ names ++ rest) ≠ none → rest.length < fuel) :
    (host.collectFilesWith disk path fuel names).Succeeds := by
  induction fuel generalizing names with
  | zero =>
    rw [← List.append_nil (place ++ names)] at hat
    exact absurd (hdepth [] hat) (Nat.not_lt_zero _)
  | succ fuel ih =>
    have hfound := Disk.find_foldl_join hfind hat
    obtain ⟨entry, hentry⟩ := Option.ne_none_iff_exists'.mp hat
    have hmetadata := Disk.metadata_of_find hfound hentry
    unfold collectFilesWith
    dsimp only
    have hexists : (Except.ok entry : Except IoError (Entry (List UInt8))).toBool = true := rfl
    rw [Disk.pathExists, hmetadata, if_neg (not_not.mpr hexists)]
    cases entry with
    | file contents => exact ⟨[names], rfl⟩
    | directory =>
      rw [Disk.readDir_of_find hfound hentry]
      refine Except.succeeds_bind.mpr ⟨.directory, rfl, Except.succeeds_bind.mpr ⟨_, rfl, ?_⟩⟩
      obtain ⟨files, hfiles⟩ : (List.mapM (fun name =>
          host.collectFilesWith disk path fuel (names ++ [name]))
          (List.filter (fun name => decide ¬ (names = [] ∧ (name.bytes = backupManifest.toBytes ∨
            name.bytes = checksumManifest.toBytes)))
              (disk.children (place ++ names)))).Succeeds := by
        refine Except.mapM_succeeds fun name hname => ih ?_ fun rest hrest => ?_
        · rw [← List.append_assoc]
          exact FileTree.mem_children.mp (List.mem_of_mem_filter hname)
        · rw [← List.append_assoc, List.append_assoc] at hrest
          have hlt := hdepth _ hrest
          rw [List.length_append, List.length_singleton] at hlt
          omega
      exact ⟨files.flatten, Except.bind_eq_ok.mpr ⟨files, hfiles, rfl⟩⟩

/-- A restore succeeds when each of its steps does. -/
theorem restoreTenant_of_steps {request : TenantRestoreRequest} {tenant : BackupTenantConfig}
    {manifest : TenantBackupManifest} {checksums : ChecksumManifest} {prepared : Disk}
    {files : List (List EntryName)}
    (hload : host.loadSelectedTenantConfig request.configPath request.tenantId = .ok tenant)
    (henabled : tenant.backupEnabled = true)
    (hcheck : host.checkBundle tenant (.ofText request.input) disk = .ok (manifest, checksums))
    (hprepared : host.prepareEmptyDirectory disk (.ofText request.targetDataDir)
      "restore target data directory" = .ok prepared)
    (hcopied : host.copyDirectory
      ((OsPath.ofText request.input).join (.ofText manifest.store.snapshotPath))
      (.ofText request.targetDataDir) prepared = .ok later)
    (hne : (OsPath.ofText request.targetDataDir).bytes ≠ [])
    (hfiles : host.collectFiles later (.ofText request.targetDataDir) = .ok files) :
    ∃ report, host.restoreTenant request disk = .ok (later, report) := by
  refine ⟨_, Except.bind_eq_ok.mpr ⟨tenant, hload, Except.bind_eq_ok.mpr
    ⟨(), refuseIf_eq_ok.mpr (by rw [henabled]; exact nofun), Except.bind_eq_ok.mpr
      ⟨_, hcheck, Except.bind_eq_ok.mpr ⟨prepared, hprepared, Except.bind_eq_ok.mpr
        ⟨later, hcopied, Except.bind_eq_ok.mpr ⟨(), if_neg hne, Except.bind_eq_ok.mpr
          ⟨files, hfiles, rfl⟩⟩⟩⟩⟩⟩⟩⟩

/-- A bundle is restored into an empty directory that is not in the copy of the data directory. -/
theorem restore_of_bundle {request : TenantRestoreRequest} {tenant : BackupTenantConfig}
    {now prepared : Disk} {data root : Place} {manifest : TenantBackupManifest}
    {files : List ChecksumFile}
    (hmanifests : host.manifests.ReadsBack) (hchecksums : host.checksums.ReadsBack)
    (hload : host.loadSelectedTenantConfig request.configPath request.tenantId = .ok tenant)
    (henabled : tenant.backupEnabled = true)
    (hwalk : now.walk host.workingDirectory (.ofText request.input) = .ok root)
    (hbundle : host.Bundle tenant.tenantId disk data now root manifest files)
    (hne : (OsPath.ofText request.targetDataDir).bytes ≠ [])
    (hprepared : host.prepareEmptyDirectory now (.ofText request.targetDataDir)
      "restore target data directory" = .ok prepared)
    (hempty : ∀ name, prepared.at?
      ((OsPath.ofText request.targetDataDir).place host.workingDirectory ++ [name]) = none)
    (hbundle' : host.Bundle tenant.tenantId disk data prepared root manifest files)
    (hout : ¬ root ++ [pocketStoreName] <+:
      (OsPath.ofText request.targetDataDir).place host.workingDirectory) :
    ∃ later report, host.restoreTenant request now = .ok (later, report) ∧
      ∀ rest, later.file?
        ((OsPath.ofText request.targetDataDir).place host.workingDirectory ++ rest) =
          disk.file? (data ++ rest) := by
  obtain ⟨hgrows, htarget⟩ := Disk.createDirAll_grows (prepareEmptyDirectory_created hprepared)
  obtain ⟨T, hT, hTdirectory⟩ := htarget hne
  cases Disk.walk_place hT
  have hbelow : ∀ name rest, prepared.at? ((OsPath.ofText request.targetDataDir).place
      host.workingDirectory ++ name :: rest) = none := by
    intro name rest
    rw [List.append_cons]
    exact FileTree.at?_below_of_none (hempty name)
  have hsource : prepared.find host.workingDirectory
      ((OsPath.ofText request.input).join (.ofName pocketStoreName)) =
      .ok (root ++ [pocketStoreName]) :=
    Disk.find_join_name (Disk.walk_mono (fun place => hgrows.keeps place _) hwalk)
      hbundle'.directory
  have hapart : Place.Apart (root ++ [pocketStoreName])
      ((OsPath.ofText request.targetDataDir).place host.workingDirectory) := by
    refine ⟨hout, fun ⟨rest, hrest⟩ => ?_⟩
    cases rest with
    | nil =>
      rw [List.append_nil] at hrest
      exact hout (hrest ▸ List.prefix_refl _)
    | cons name rest =>
      have hsnapshot := hbundle'.snapshot
      rw [← hrest, hbelow] at hsnapshot
      cases hsnapshot
  obtain ⟨later, hlater⟩ := copyDirectoryWith_succeeds hsource hbundle'.snapshot hT hne
    (.inl hTdirectory) hapart hbelow hbundle'.shallow
  have hnone : NoFiles prepared
      ((OsPath.ofText request.targetDataDir).place host.workingDirectory) := by
    intro rest
    cases rest with
    | nil =>
      rw [List.append_nil, FileTree.file?, hTdirectory]
    | cons name rest => exact FileTree.file?_of_none (hbelow name rest)
  obtain ⟨hkeeps, hcopied⟩ := copyDirectoryWith_copied host.depth hlater
    (Disk.find_eq_ok.mp hsource).2 hT hne hapart hnone
  obtain ⟨collected, hcollected⟩ : (host.collectFiles later
      (.ofText request.targetDataDir)).Succeeds := by
    have hfind := Disk.find_eq_ok.mpr ⟨hne, Disk.walk_mono hkeeps hT⟩
    refine Except.succeeds_bind.mpr ?_
    obtain ⟨found, hfound⟩ := @collectFilesWith_succeeds host later _ _ (host.depth + 1) [] hfind
      (by rw [List.append_nil, hkeeps _ hTdirectory]; exact Option.some_ne_none _)
        fun rest hrest => by
        rw [List.append_nil] at hrest
        rcases hcopied.adds rest hrest with hsource | htarget
        · exact Nat.lt_succ_of_le (hbundle'.reached rest hsource)
        · cases rest with
          | nil => exact Nat.succ_pos _
          | cons name rest => exact absurd (hbelow name rest) htarget
    exact ⟨found, hfound, ⟨_, rfl⟩⟩
  have hcopy : host.copyDirectory
      ((OsPath.ofText request.input).join (.ofText manifest.store.snapshotPath))
      (.ofText request.targetDataDir) prepared = .ok later := by
    rw [hbundle.snapshotPath]
    exact hlater
  obtain ⟨report, hrestored⟩ := restoreTenant_of_steps hload henabled
    (checkBundle_of_bundle hmanifests hchecksums hwalk hbundle) hprepared hcopy hne hcollected
  refine ⟨later, report, hrestored, fun rest => ?_⟩
  rw [hcopied.below]
  exact hbundle'.copied rest

/-- The names along a path that are texts make up the text of the path. -/
theorem relativePathString_of_texts {names : List EntryName} {parts : List Text}
    (h : List.Forall₂ (fun name part => name.bytes = part.toBytes) names parts) :
    relativePathString names = .ok (['/'].intercalate parts) := by
  refine Except.bind_eq_ok.mpr ⟨parts, Except.mapM_eq_ok.mpr (h.imp ?_), rfl⟩
  intro name part hpart
  rw [hpart]
  exact Except.okOr_eq_ok.mpr (Text.ofBytes?_toBytes part)

/-- A backup succeeds when each of its steps does. -/
theorem backupTenant_of_steps {request : TenantBackupRequest} {tenant : BackupTenantConfig}
    {prepared copied redacted checked written : Disk} {pubkey : Option Text} {createdAt : UInt64}
    {files : List ChecksumFile} {digest : Text} {size : UInt64}
    (hsecrets : request.includeSecrets = false)
    (hload : host.loadSelectedTenantConfig request.configPath request.tenantId = .ok tenant)
    (henabled : tenant.backupEnabled = true)
    (hprepared : host.prepareEmptyDirectory disk (.ofText request.output) "backup output" =
      .ok prepared)
    (hcopied : host.copyDirectory tenant.dataDirectory
      ((OsPath.ofText request.output).join (.ofText pocketStoreDir)) prepared = .ok copied)
    (hpubkey : tenant.relaySelfPubkey = .ok pubkey)
    (hredacted : host.writeJsonFile copied
      ((OsPath.ofText request.output).join (.ofText redactedTenantConfig)) tenant.redacted =
        .ok redacted)
    (hfiles : host.collectChecksums redacted (.ofText request.output) = .ok files)
    (hchecked : host.writeJsonFile redacted
      ((OsPath.ofText request.output).join (.ofText checksumManifest))
        (host.checksums.toText ⟨checksumSchema, "sha256".toList, files⟩) = .ok checked)
    (hdigest : host.fileSha256Hex checked
      ((OsPath.ofText request.output).join (.ofText checksumManifest)) = .ok (digest, size))
    (hnow : host.nowUnixSeconds = .ok createdAt)
    (hwritten : host.writeJsonFile checked
      ((OsPath.ofText request.output).join (.ofText backupManifest))
        (host.manifests.toText {
          schema := backupSchema
          tangleVersion := host.tangleRelayVersion
          tangleSpecVersion := tangleSpecVersion
          createdAt := createdAt
          source := ⟨tenant.tenantId, tenant.tenantSchema, tenant.host, tenant.relayUrl, pubkey⟩
          store := ⟨tenant.dataDirectory.display, pocketStoreDir⟩
          redactedTenantConfigPath := redactedTenantConfig
          checksumManifestPath := checksumManifest
          checksumManifestSha256 := digest
          checksumFileCount := .ofNat files.length
          includesSecrets := false }) = .ok written) :
    ∃ report, host.backupTenant request disk = .ok (written, report) := by
  refine ⟨_, Except.bind_eq_ok.mpr ⟨(), refuseIf_eq_ok.mpr (by rw [hsecrets]; exact nofun),
    Except.bind_eq_ok.mpr ⟨tenant, hload, Except.bind_eq_ok.mpr
      ⟨(), refuseIf_eq_ok.mpr (by rw [henabled]; exact nofun), Except.bind_eq_ok.mpr
        ⟨prepared, hprepared, Except.bind_eq_ok.mpr ⟨copied, hcopied, Except.bind_eq_ok.mpr
          ⟨tenant.redacted, Except.bind_eq_ok.mpr ⟨pubkey, hpubkey, rfl⟩, Except.bind_eq_ok.mpr
            ⟨redacted, hredacted, Except.bind_eq_ok.mpr ⟨files, hfiles, Except.bind_eq_ok.mpr
              ⟨checked, hchecked, Except.bind_eq_ok.mpr ⟨(digest, size), hdigest,
                Except.bind_eq_ok.mpr ⟨_, Except.bind_eq_ok.mpr ⟨pubkey, hpubkey, rfl⟩,
                  Except.bind_eq_ok.mpr ⟨createdAt, hnow, Except.bind_eq_ok.mpr
                    ⟨written, hwritten, rfl⟩⟩⟩⟩⟩⟩⟩⟩⟩⟩⟩⟩⟩⟩

/-- An empty directory is prepared as it stands. -/
theorem prepareEmptyDirectory_of_empty {label : String} (hne : path.bytes ≠ [])
    (hwalk : disk.walk host.workingDirectory path = .ok place)
    (hdirectory : disk.at? place = some .directory) (hempty : disk.children place = []) :
    ∃ prepared, host.prepareEmptyDirectory disk path label = .ok prepared ∧
      ∀ other, prepared.at? other = disk.at? other := by
  obtain ⟨prepared, hprepared, hat⟩ := Disk.createDirAll_of_walk hne hwalk (.inl hdirectory)
  have hfind := Disk.find_eq_ok.mpr ⟨hne, hwalk⟩
  have hcheck : host.checkEmptyDirectory disk path label = .ok () := by
    have hisDir := Disk.isDir_iff.mpr ⟨place, hfind, hdirectory⟩
    unfold checkEmptyDirectory
    split
    · refine Except.bind_eq_ok.mpr ⟨(), refuseIf_eq_ok.mpr (by rw [hisDir]; exact Bool.noConfusion),
        Except.bind_eq_ok.mpr ⟨[], ?_, refuseIf_eq_ok.mpr (not_not.mpr rfl)⟩⟩
      rw [Disk.readDir_of_find hfind hdirectory, hempty]
      rfl
    · rfl
  refine ⟨prepared, Except.bind_eq_ok.mpr ⟨(), hcheck, Except.mapError_eq_ok.mpr hprepared⟩, ?_⟩
  intro other
  rw [hat]
  split
  · rename_i heq
    rw [heq, hdirectory]
  · rfl

/-- A restore gives back exactly what is listed when the target held no files and everything it
copies lies in the bundle and is listed. A bundle that is as a backup wrote it into an empty
directory gives back the files of the data directory. -/
theorem restored_exactly_iff (host : BackupHost) :
    (∀ (request : TenantRestoreRequest) (tenant : BackupTenantConfig)
      (manifest : TenantBackupManifest) (checksums : ChecksumManifest) (disk later : Disk)
      (report : TenantRestoreReport),
      host.loadSelectedTenantConfig request.configPath request.tenantId = .ok tenant →
      host.checkBundle tenant (.ofText request.input) disk = .ok (manifest, checksums) →
      host.restoreTenant request disk = .ok (later, report) →
      (host.RestoredExactly disk later (.ofText request.input)
          (((OsPath.ofText request.input).join (.ofText manifest.store.snapshotPath)).place
            host.workingDirectory)
          ((OsPath.ofText request.targetDataDir).place host.workingDirectory) checksums.files ↔
        host.CopiesListed disk (.ofText request.input)
          (((OsPath.ofText request.input).join (.ofText manifest.store.snapshotPath)).place
            host.workingDirectory)
          ((OsPath.ofText request.targetDataDir).place host.workingDirectory) checksums.files)) ∧
    (host.manifests.ReadsBack → host.checksums.ReadsBack →
      ∀ (request : TenantBackupRequest) (tenant : BackupTenantConfig) (disk output written : Disk)
        (report : TenantBackupReport),
        host.loadSelectedTenantConfig request.configPath request.tenantId = .ok tenant →
        host.prepareEmptyDirectory disk (.ofText request.output) "backup output" = .ok output →
        (∀ name, output.at?
          ((OsPath.ofText request.output).place host.workingDirectory ++ [name]) = none) →
        host.backupTenant request disk = .ok (written, report) →
        ∀ (restore : TenantRestoreRequest) (now prepared : Disk) (root : Place),
          restore.configPath = request.configPath → restore.tenantId = request.tenantId →
          now.walk host.workingDirectory (.ofText restore.input) = .ok root →
          (∀ rest, now.at? (root ++ rest) =
            written.at? ((OsPath.ofText request.output).place host.workingDirectory ++ rest)) →
          (OsPath.ofText restore.targetDataDir).bytes ≠ [] →
          host.prepareEmptyDirectory now (.ofText restore.targetDataDir)
            "restore target data directory" = .ok prepared →
          (∀ name, prepared.at?
            ((OsPath.ofText restore.targetDataDir).place host.workingDirectory ++ [name]) = none) →
          (∀ rest, prepared.at? (root ++ rest) = now.at? (root ++ rest)) →
          ¬ root ++ [pocketStoreName] <+:
            (OsPath.ofText restore.targetDataDir).place host.workingDirectory →
          ∃ later report, host.restoreTenant restore now = .ok (later, report) ∧
            ∀ rest, later.file?
              ((OsPath.ofText restore.targetDataDir).place host.workingDirectory ++ rest) =
                disk.file? (tenant.dataDirectory.place host.workingDirectory ++ rest)) := by
  constructor
  · intro request tenant manifest checksums disk later report hload hcheck h
    exact restoredExactly_iff hload hcheck h
  · intro hmanifests hchecksums request tenant disk output written report hload hprepared hempty h
    obtain ⟨henabled, _⟩ := backupTenant_cases hload hprepared h
    obtain ⟨manifest, files, hbundle⟩ := bundle_of_backup hload hprepared hempty h
    intro restore now prepared root hconfig hid hwalk hsame hne htarget htargetEmpty hkept hout
    rw [← hconfig, ← hid] at hload
    exact restore_of_bundle hmanifests hchecksums hload henabled hwalk (hbundle.moved hsame) hne
      htarget htargetEmpty (hbundle.moved fun rest => (hkept rest).trans (hsame rest)) hout

end BackupHost

/-! ## A bundle that is restored, and one with a file beside -/

namespace Sample

/-- The digest of the file `a`. -/
def dataDigest : List UInt8 :=
  [0xca, 0x97, 0x81, 0x12, 0xca, 0x1b, 0xbd, 0xca, 0xfa, 0xc2, 0x31, 0xb3, 0x9a, 0x23, 0xdc, 0x4d,
    0xa7, 0x86, 0xef, 0xf8, 0x14, 0x7c, 0x4e, 0x72, 0xb9, 0x80, 0x77, 0x85, 0xaf, 0xee, 0x48, 0xbb]

/-- The digest of the configuration without its secrets. -/
def redactedDigest : List UInt8 :=
  [0xb8, 0x05, 0xbe, 0xc5, 0x9c, 0x31, 0x42, 0xcd, 0x97, 0x3b, 0x1e, 0x6c, 0xee, 0xbc, 0x50, 0xdc,
    0x6a, 0xc5, 0x01, 0x88, 0x6c, 0xa9, 0x1b, 0xa3, 0x36, 0xb0, 0x5b, 0x56, 0x9e, 0xbd, 0xd3, 0x36]

/-- The digest of the list of the two. -/
def checksumsDigest : List UInt8 :=
  [0xb8, 0x2c, 0x64, 0x3c, 0x20, 0xf7, 0x3c, 0xfb, 0xe1, 0xa5, 0x82, 0xc8, 0xfb, 0x74, 0x86, 0x36,
    0xc0, 0x89, 0xc0, 0x7f, 0x75, 0xb9, 0xde, 0xef, 0xd6, 0xee, 0xc4, 0x98, 0x1b, 0x6d, 0x1b, 0x3d]

/-- The configuration of the tenant without its secrets. -/
def redactedText : Text :=
  ['\n'].intercalate (["\x7b", "  \"backup_export\": \x7b", "    \"backup_enabled\": true,",
    "    \"export_enabled\": true", "  \x7d,", "  \"groups\": \x7b", "    \"enabled\": false,",
    "    \"relay_secret\": \"<redacted>\",", "    \"relay_self\": null", "  \x7d,",
    "  \"host\": \"farm.example\",", "  \"inactive\": false,", "  \"info\": \x7b",
    "    \"contact\": null,", "    \"description\": \"\",", "    \"icon\": null,",
    "    \"name\": \"Farm\"", "  \x7d,", "  \"pocket\": \x7b", "    \"data_directory\": \"data\",",
    "    \"sync_policy\": \"FlushOnShutdown\"", "  \x7d,",
      "  \"relay_url\": \"wss://farm.example\",",
    "  \"tenant_id\": \"farm\",", "  \"tenant_schema\": \"farm\"", "\x7d"].map String.toList)

/-- A tenant that may be backed up. -/
def bundleTenant : BackupTenantConfig where
  tenantId := "farm".toList
  tenantSchema := "farm".toList
  host := "farm.example".toList
  relayUrl := "wss://farm.example".toList
  relaySelfPubkey := .ok none
  dataDirectory := .ofText "data".toList
  backupEnabled := true
  redacted := redactedText

/-- The digests of the three files that are checked. -/
def bundleSha256 (contents : List UInt8) : List UInt8 :=
  if contents = [0x61] then dataDigest
  else if contents = redactedText.toBytes then redactedDigest
  else checksumsDigest

/-- A host with one tenant that prints documents and reads them as the relay does. -/
def bundleHost : BackupHost where
  workingDirectory := []
  depth := 2
  loadTangleHostRuntimeConfig _ := .ok [bundleTenant]
  sha256 := bundleSha256
  manifests := TenantBackupManifest.form
  checksums := ChecksumManifest.form
  tangleRelayVersion := "0.1.0".toList
  nowUnixSeconds := .ok 1714300001

/-- The list of checksums of the bundle. -/
def bundleChecksums : ChecksumManifest where
  schema := checksumSchema
  algorithm := "sha256".toList
  files := [⟨"pocket_store/data.mdb".toList, lowerHex dataDigest, 1⟩,
    ⟨redactedTenantConfig, lowerHex redactedDigest, 499⟩]

/-- The manifest of the bundle. -/
def bundleManifest : TenantBackupManifest where
  schema := backupSchema
  tangleVersion := "0.1.0".toList
  tangleSpecVersion := tangleSpecVersion
  createdAt := 1714300001
  source := ⟨"farm".toList, "farm".toList, "farm.example".toList, "wss://farm.example".toList, none⟩
  store := ⟨"data".toList, pocketStoreDir⟩
  redactedTenantConfigPath := redactedTenantConfig
  checksumManifestPath := checksumManifest
  checksumManifestSha256 := lowerHex checksumsDigest
  checksumFileCount := 2
  includesSecrets := false

/-- The disk that a step leaves. -/
def afterwards {ε : Type} (step : Except ε Disk) : Disk :=
  match step with
  | .ok disk => disk
  | .error _ => ⟨∅, nofun⟩

/-- A step that succeeds leads to the disk afterwards. -/
theorem eq_afterwards {ε : Type} {step : Except ε Disk} (h : step.Succeeds) :
    step = .ok (afterwards step) := by
  obtain ⟨disk, rfl⟩ := h
  rfl

/-- A data directory with one file, and two empty directories. -/
def farmDisk : Disk :=
  afterwards do
    let empty : Disk := ⟨∅, nofun⟩
    let disk ← empty.createDirAll [] (.ofText "data".toList)
    let disk ← disk.createDirAll [] (.ofText "bundle".toList)
    let disk ← disk.createDirAll [] (.ofText "restored".toList)
    disk.write [] (.ofText "data/data.mdb".toList) [0x61]

/-- The request for a backup of the tenant. -/
def backupFarm : TenantBackupRequest :=
  ⟨[], "farm".toList, "bundle".toList, false⟩

/-- The request to restore it. -/
def restoreBundle : TenantRestoreRequest :=
  ⟨[], "farm".toList, "bundle".toList, "restored".toList⟩

/-- Where the bundle is put. -/
def bundlePath : OsPath := .ofText backupFarm.output

/-- The copy of the data directory. -/
def copyFarm : Except Text Disk := do
  let disk ← bundleHost.prepareEmptyDirectory farmDisk bundlePath "backup output"
  bundleHost.copyDirectory bundleTenant.dataDirectory
    (bundlePath.join (.ofText pocketStoreDir)) disk

/-- The redacted configuration is written beside the copy. -/
def redactFarm : Except Text Disk :=
  bundleHost.writeJsonFile (afterwards copyFarm) (bundlePath.join (.ofText redactedTenantConfig))
    redactedText

/-- The list of checksums is written. -/
def listFarm : Except Text Disk :=
  bundleHost.writeJsonFile (afterwards redactFarm) (bundlePath.join (.ofText checksumManifest))
    (bundleHost.checksums.toText bundleChecksums)

/-- The manifest is written. -/
def finishFarm : Except Text Disk :=
  bundleHost.writeJsonFile (afterwards listFarm) (bundlePath.join (.ofText backupManifest))
    (bundleHost.manifests.toText bundleManifest)

/-- The disk with the bundle. -/
def bundleDisk : Disk :=
  afterwards finishFarm

/-- The bundle with a file beside the data file. -/
def tamperedDisk : Disk :=
  afterwards (bundleDisk.write [] (.ofText "bundle/pocket_store/lock.mdb".toList) [0x62])

def bundleName : EntryName := ⟨[0x62, 0x75, 0x6e, 0x64, 0x6c, 0x65], by decide +kernel⟩
def restoredName : EntryName :=
  ⟨[0x72, 0x65, 0x73, 0x74, 0x6f, 0x72, 0x65, 0x64], by decide +kernel⟩
def dataFileName : EntryName :=
  ⟨[0x64, 0x61, 0x74, 0x61, 0x2e, 0x6d, 0x64, 0x62], by decide +kernel⟩
def lockName : EntryName := ⟨[0x6c, 0x6f, 0x63, 0x6b, 0x2e, 0x6d, 0x64, 0x62], by decide +kernel⟩

/-- The manifest of the sample is read back from its text. -/
theorem manifests_readBack : bundleHost.manifests.ReadsBack :=
  TenantBackupManifest.form_readsBack

/-- So is the list of checksums. -/
theorem checksums_readBack : bundleHost.checksums.ReadsBack :=
  ChecksumManifest.form_readsBack

/-- Every step of the backup succeeds. -/
theorem writesFarm : copyFarm.Succeeds ∧ redactFarm.Succeeds ∧ listFarm.Succeeds ∧
    finishFarm.Succeeds := by
  decide +kernel

/-- What the backup lists: the data file and the redacted configuration, which is written before the
files are collected. -/
theorem collectChecksums_farm :
    bundleHost.collectChecksums (afterwards redactFarm) bundlePath = .ok bundleChecksums.files := by
  have hfiles : bundleHost.collectFiles (afterwards redactFarm) bundlePath =
      .ok [[pocketStoreName, dataFileName], [redactedName]] := by
    have hfound : bundleHost.collectFilesWith (afterwards redactFarm) bundlePath 3 [] =
        .ok [[pocketStoreName, dataFileName], [redactedName]] := by
      decide +kernel
    have hsorted : [[pocketStoreName, dataFileName], [redactedName]].Pairwise
        fun a b => decide (a ≤ b) = true := by
      decide +kernel
    exact Except.bind_eq_ok.mpr
      ⟨_, hfound, congrArg Except.ok (List.mergeSort_of_pairwise hsorted)⟩
  have hdata : bundleHost.fileSha256Hex (afterwards redactFarm)
      ((bundlePath.join (.ofName pocketStoreName)).join (.ofName dataFileName)) =
        .ok (lowerHex dataDigest, 1) := by
    decide +kernel
  have hredacted : bundleHost.fileSha256Hex (afterwards redactFarm)
      (bundlePath.join (.ofName redactedName)) = .ok (lowerHex redactedDigest, 499) := by
    decide +kernel
  have hrelativeData : BackupHost.relativePathString [pocketStoreName, dataFileName] =
      .ok "pocket_store/data.mdb".toList :=
    @BackupHost.relativePathString_of_texts [pocketStoreName, dataFileName]
      [pocketStoreDir, "data.mdb".toList] (.cons rfl (.cons rfl .nil))
  have hrelativeRedacted : BackupHost.relativePathString [redactedName] =
      .ok redactedTenantConfig :=
    @BackupHost.relativePathString_of_texts [redactedName] [redactedTenantConfig] (.cons rfl .nil)
  refine Except.bind_eq_ok.mpr ⟨_, hfiles, Except.mapM_eq_ok.mpr ?_⟩
  refine .cons ?_ (.cons ?_ .nil)
  · exact Except.bind_eq_ok.mpr ⟨_, hrelativeData, Except.bind_eq_ok.mpr ⟨_, hdata, rfl⟩⟩
  · exact Except.bind_eq_ok.mpr ⟨_, hrelativeRedacted, Except.bind_eq_ok.mpr ⟨_, hredacted, rfl⟩⟩

/-- The backup leaves the bundle. -/
theorem backupTenant_farm : ∃ report,
    bundleHost.backupTenant backupFarm farmDisk = .ok (bundleDisk, report) := by
  obtain ⟨hcopy, hredact, hlist, hfinish⟩ := writesFarm
  obtain ⟨prepared, hprepared, hcopied⟩ := Except.bind_eq_ok.mp (eq_afterwards hcopy)
  have hdigest : bundleHost.fileSha256Hex (afterwards listFarm)
      (bundlePath.join (.ofText checksumManifest)) = .ok (lowerHex checksumsDigest, 410) := by
    decide +kernel
  exact BackupHost.backupTenant_of_steps rfl rfl rfl hprepared hcopied rfl (eq_afterwards hredact)
    collectChecksums_farm (eq_afterwards hlist) hdigest rfl (eq_afterwards hfinish)

/-- The directory of the bundle is empty before. -/
theorem emptyOutput_farm : ∃ output,
    bundleHost.prepareEmptyDirectory farmDisk (.ofText backupFarm.output) "backup output" =
      .ok output ∧
    ∀ name, output.at? ([bundleName] ++ [name]) = none := by
  have hnames : farmDisk.children [bundleName] = [] := by decide +kernel
  obtain ⟨output, houtput, hsame⟩ := @BackupHost.prepareEmptyDirectory_of_empty bundleHost farmDisk
    bundlePath [bundleName] "backup output" (by decide +kernel) (by decide +kernel)
    (by decide +kernel) hnames
  refine ⟨output, houtput, fun name => ?_⟩
  rw [hsame]
  by_contra hat
  exact List.not_mem_nil (hnames ▸ FileTree.mem_children.mpr hat)

/-- The tampered bundle passes the checks. -/
theorem checkBundle_tampered :
    bundleHost.checkBundle bundleTenant (.ofText restoreBundle.input) tamperedDisk =
      .ok (bundleManifest, bundleChecksums) := by
  have hfinds : tamperedDisk.find [] (bundlePath.join (.ofText backupManifest)) =
        .ok [bundleName, manifestName] ∧
      tamperedDisk.find [] (bundlePath.join (.ofText checksumManifest)) =
        .ok [bundleName, checksumName] := by
    decide +kernel
  have hfiles : tamperedDisk.file? [bundleName, manifestName] =
        some (bundleHost.manifests.toText bundleManifest).toBytes ∧
      tamperedDisk.file? [bundleName, checksumName] =
        some (bundleHost.checksums.toText bundleChecksums).toBytes := by
    decide +kernel
  have hdigest : bundleHost.fileSha256Hex tamperedDisk
      (bundlePath.join (.ofText checksumManifest)) = .ok (lowerHex checksumsDigest, 410) := by
    decide +kernel
  have hverify : bundleHost.verifyChecksums tamperedDisk bundlePath bundleChecksums.files =
      .ok () := by
    decide +kernel
  have hmanifest : bundleHost.readBackupManifest tamperedDisk
      (bundlePath.join (.ofText backupManifest)) = .ok bundleManifest := by
    have hread := @BackupHost.readToString_of_file bundleHost _ _ _ _ hfinds.1 hfiles.1
    exact Except.bind_eq_ok.mpr
      ⟨_, hread, Except.mapError_eq_ok.mpr (manifests_readBack bundleManifest)⟩
  have hlist : bundleHost.readChecksumManifest tamperedDisk
      (bundlePath.join (.ofText checksumManifest)) = .ok bundleChecksums := by
    have hread := @BackupHost.readToString_of_file bundleHost _ _ _ _ hfinds.2 hfiles.2
    exact Except.bind_eq_ok.mpr ⟨_, hread, Except.bind_eq_ok.mpr
      ⟨_, Except.mapError_eq_ok.mpr (checksums_readBack bundleChecksums), rfl⟩⟩
  exact BackupHost.checkBundle_of_checks hmanifest rfl rfl hdigest hlist hverify

/-- It is restored. -/
theorem restoreTenant_tampered :
    (bundleHost.restoreTenant restoreBundle tamperedDisk).Succeeds := by
  have hrest : (do
      let disk ← bundleHost.prepareEmptyDirectory tamperedDisk (.ofText restoreBundle.targetDataDir)
        "restore target data directory"
      let disk ← bundleHost.copyDirectory ((OsPath.ofText restoreBundle.input).join
        (.ofText bundleManifest.store.snapshotPath)) (.ofText restoreBundle.targetDataDir) disk
      BackupHost.checkDataDirectory (.ofText restoreBundle.targetDataDir)
      bundleHost.collectFiles disk (.ofText restoreBundle.targetDataDir)).Succeeds := by
    decide +kernel
  obtain ⟨prepared, hprepared, hrest⟩ := Except.succeeds_bind.mp hrest
  obtain ⟨copied, hcopied, hrest⟩ := Except.succeeds_bind.mp hrest
  obtain ⟨_, htarget, files, hfiles⟩ := Except.succeeds_bind.mp hrest
  obtain ⟨report, hrestored⟩ := @BackupHost.restoreTenant_of_steps bundleHost tamperedDisk copied
    restoreBundle bundleTenant _ _ prepared files rfl rfl checkBundle_tampered hprepared hcopied
    (by decide +kernel) hfiles
  exact ⟨_, hrestored⟩

end Sample

open Sample in
/-- The bundle that a backup leaves of a data directory is restored, and the file of the data
directory is then below the target. -/
theorem restored_exactly_iff_farm : ∃ (written later : Disk) (backup : TenantBackupReport)
    (restore : TenantRestoreReport) (manifest : TenantBackupManifest)
    (checksums : ChecksumManifest),
    bundleHost.backupTenant backupFarm farmDisk = .ok (written, backup) ∧
    bundleHost.checkBundle bundleTenant (.ofText restoreBundle.input) written =
      .ok (manifest, checksums) ∧
    bundleHost.restoreTenant restoreBundle written = .ok (later, restore) ∧
    (bundleHost.RestoredExactly written later (.ofText restoreBundle.input)
        (((OsPath.ofText restoreBundle.input).join
          (.ofText manifest.store.snapshotPath)).place bundleHost.workingDirectory)
        ((OsPath.ofText restoreBundle.targetDataDir).place bundleHost.workingDirectory)
        checksums.files ↔
      bundleHost.CopiesListed written (.ofText restoreBundle.input)
        (((OsPath.ofText restoreBundle.input).join
          (.ofText manifest.store.snapshotPath)).place bundleHost.workingDirectory)
        ((OsPath.ofText restoreBundle.targetDataDir).place bundleHost.workingDirectory)
        checksums.files) ∧
    later.file? [restoredName, dataFileName] = some [0x61] := by
  obtain ⟨report, hbackup⟩ := backupTenant_farm
  obtain ⟨output, houtput, hempty⟩ := emptyOutput_farm
  obtain ⟨prepared, hprepared, hkept⟩ := @BackupHost.prepareEmptyDirectory_of_empty bundleHost
    bundleDisk (.ofText restoreBundle.targetDataDir) [restoredName] "restore target data directory"
    (by decide +kernel) (by decide +kernel) (by decide +kernel) (by decide +kernel)
  have hnames : bundleDisk.children [restoredName] = [] := by decide +kernel
  have hemptyTarget : ∀ name, prepared.at? ([restoredName] ++ [name]) = none := by
    intro name
    rw [hkept]
    by_contra hat
    exact List.not_mem_nil (hnames ▸ FileTree.mem_children.mpr hat)
  have hwalk : bundleDisk.walk bundleHost.workingDirectory (.ofText restoreBundle.input) =
      .ok [bundleName] := by
    decide +kernel
  obtain ⟨later, restored, hrestored, hfiles⟩ := (BackupHost.restored_exactly_iff bundleHost).2
    manifests_readBack checksums_readBack backupFarm bundleTenant farmDisk output bundleDisk report
    rfl houtput hempty hbackup restoreBundle bundleDisk prepared [bundleName] rfl rfl hwalk
    (fun _ => rfl) (by decide +kernel) hprepared hemptyTarget (fun rest => hkept _)
    (by decide +kernel)
  obtain ⟨manifest, files, hbundle⟩ :=
    BackupHost.bundle_of_backup rfl houtput hempty hbackup
  have hcheck :=
    BackupHost.checkBundle_of_bundle manifests_readBack checksums_readBack hwalk hbundle
  refine ⟨bundleDisk, later, report, restored, manifest, _, hbackup, hcheck, hrestored, ?_, ?_⟩
  · exact (BackupHost.restored_exactly_iff bundleHost).1 restoreBundle bundleTenant manifest _
      bundleDisk later restored rfl hcheck hrestored
  · exact (hfiles [dataFileName]).trans (by decide +kernel)

open Sample in
/-- A file that stands beside the listed ones in the bundle is restored with them: the restore
verifies the files of the list, and copies the whole directory. -/
theorem unlisted_restored : ∃ later report,
    bundleHost.loadSelectedTenantConfig restoreBundle.configPath restoreBundle.tenantId =
      .ok bundleTenant ∧
    bundleHost.checkBundle bundleTenant (.ofText restoreBundle.input) tamperedDisk =
      .ok (bundleManifest, bundleChecksums) ∧
    bundleHost.restoreTenant restoreBundle tamperedDisk = .ok (later, report) ∧
    ¬ bundleHost.RestoredExactly tamperedDisk later (.ofText restoreBundle.input)
        (((OsPath.ofText restoreBundle.input).join
          (.ofText bundleManifest.store.snapshotPath)).place bundleHost.workingDirectory)
        ((OsPath.ofText restoreBundle.targetDataDir).place bundleHost.workingDirectory)
        bundleChecksums.files := by
  have hload : bundleHost.loadSelectedTenantConfig restoreBundle.configPath restoreBundle.tenantId =
      .ok bundleTenant := rfl
  obtain ⟨⟨later, report⟩, hrestored⟩ := restoreTenant_tampered
  refine ⟨later, report, hload, checkBundle_tampered, hrestored, fun hexact => ?_⟩
  have hlisted :=
    ((BackupHost.restoredExactly_iff hload checkBundle_tampered hrestored).mp hexact).2
  obtain ⟨_, file, hin, hplace⟩ := hlisted [lockName] (by decide +kernel)
  have hplaces : ∀ file ∈ bundleChecksums.files,
      bundleHost.listedPlace (.ofText restoreBundle.input) file ≠
        [bundleName, pocketStoreName, lockName] := by
    decide +kernel
  exact hplaces file hin hplace

end Tangle
