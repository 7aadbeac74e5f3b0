import Tangle.Host.Copying

/-!
# Restored bundles

A restore checks the files that the list of checksums names, and copies the files below the
directory that the manifest names. Where the target directory held no files, what is restored is
exactly what is listed when every file that is copied lies in the bundle and is listed
(`BackupHost.restored_exactly_iff`): the restore checks neither. A bundle that is restored as a
backup wrote it gives back the files of the data directory.
-/

namespace Tangle

/-! ## Texts in bytes -/

namespace Text

/-- The bytes of a text are its encoding. -/
theorem toByteArray_toBytes (text : Text) : text.toBytes.toByteArray = text.utf8Encode :=
  rfl

/-- The bytes of a text are read as the text. -/
theorem ofBytes?_toBytes (text : Text) : ofBytes? text.toBytes = some text := by
  rw [ofBytes?, toByteArray_toBytes, List.utf8Decode?_utf8Encode]
  rfl

/-- The bytes that a text is read from are its bytes. -/
theorem toBytes_of_ofBytes? {bytes : List UInt8} {text : Text} (h : ofBytes? bytes = some text) :
    text.toBytes = bytes := by
  obtain ⟨characters, hdecode, rfl⟩ := Option.map_eq_some_iff.mp h
  have hencode := @ByteArray.utf8Encode_get_utf8Decode? bytes.toByteArray (by rw [hdecode]; rfl)
  simp only [hdecode, Option.get_some] at hencode
  exact List.toByteArray_inj.mp hencode

/-- The bytes of two texts together are those of the first and then of the second. -/
theorem toBytes_append (a b : Text) : toBytes (a ++ b) = a.toBytes ++ b.toBytes :=
  List.flatMap_append

/-- The bytes of texts with slashes between them are their bytes with separators between. -/
theorem toBytes_intercalate (parts : List Text) :
    toBytes (['/'].intercalate parts) = [separator].intercalate (parts.map toBytes) := by
  induction parts with
  | nil => rfl
  | cons part parts ih =>
    cases parts with
    | nil => rw [List.map_singleton, List.intercalate_singleton, List.intercalate_singleton]
    | cons next parts =>
      rw [List.intercalate_cons_cons, toBytes_append, toBytes_append, ih, List.map_cons,
        List.map_cons]
      exact (List.intercalate_cons_cons).symm

end Text

/-! ## Names along a path -/

namespace Disk

variable {disk : Disk} {workingDirectory place : Place} {path : OsPath}

/-- Where something stands, the names lead to it. -/
theorem foldlM_enter_names {names : List EntryName} (hdirectory : disk.at? place = some .directory)
    (h : disk.at? (place ++ names) ≠ none) :
    (names.map PathStep.name).foldlM disk.enter place = .ok (place ++ names) := by
  induction names generalizing place with
  | nil => rw [List.map_nil, List.foldlM_nil, List.append_nil]; rfl
  | cons name names ih =>
    have hspelled : place ++ name :: names = place ++ [name] ++ names := by simp
    rw [hspelled] at h ⊢
    refine Except.bind_eq_ok.mpr ⟨place ++ [name], enter_eq_ok.mpr ⟨hdirectory, nofun, rfl⟩, ?_⟩
    cases names with
    | nil => rw [List.map_nil, List.foldlM_nil, List.append_nil]; rfl
    | cons next names => exact ih (FileTree.directory_of_below h) h

/-- The path of a file from a directory, spelled with separators, leads to the file. -/
theorem find_join_names {names : List EntryName} (hne : names ≠ [])
    (hwalk : disk.walk workingDirectory path = .ok place)
    (hdirectory : disk.at? place = some .directory) (h : disk.at? (place ++ names) ≠ none) :
    disk.find workingDirectory (path.join ⟨[separator].intercalate (names.map EntryName.bytes)⟩) =
      .ok (place ++ names) := by
  have hsteps : (⟨[separator].intercalate (names.map EntryName.bytes)⟩ : OsPath).steps =
      names.map PathStep.name := by
    rw [OsPath.steps, splitSeparators_intercalate (mt List.map_eq_nil_iff.mp hne), List.map_map]
    · exact List.map_congr_left fun name _ => PathStep.ofBytes_name name
    · intro bytes hbytes
      obtain ⟨name, _, rfl⟩ := List.mem_map.mp hbytes
      exact name.isEntryName.2.2.2.1
  have hbytes : ∃ byte bytes, [separator].intercalate (names.map EntryName.bytes) = byte :: bytes ∧
      byte ≠ separator := by
    cases names with
    | nil => exact absurd rfl hne
    | cons name names =>
      obtain ⟨hnil, _, _, hseparator, _⟩ := name.isEntryName
      cases hname : name.bytes with
      | nil => exact absurd hname hnil
      | cons byte bytes =>
        rw [hname, List.mem_cons, not_or] at hseparator
        cases names with
        | nil => exact ⟨byte, bytes, by rw [List.map_singleton, List.intercalate_singleton, hname],
            Ne.symm hseparator.1⟩
        | cons next names =>
          refine ⟨byte, bytes ++ [separator] ++ [separator].intercalate
            ((next :: names).map EntryName.bytes), ?_, Ne.symm hseparator.1⟩
          rw [List.map_cons, List.map_cons, List.intercalate_cons_cons, hname]
          rfl
  obtain ⟨byte, bytes, hspelled, hbyte⟩ := hbytes
  have habsolute : (⟨[separator].intercalate (names.map EntryName.bytes)⟩ : OsPath).isAbsolute =
      false := by
    simp [OsPath.isAbsolute, hspelled, hbyte]
  refine find_eq_ok.mpr ⟨OsPath.join_bytes_ne_nil ?_, ?_⟩
  · rw [hspelled]
    exact List.cons_ne_nil _ _
  · rw [walk_join habsolute (hsteps ▸ mt List.map_eq_nil_iff.mp hne), hwalk, hsteps]
    exact foldlM_enter_names hdirectory h

/-- Names that are joined to a path one after the other lead on from where the path leads. -/
theorem find_foldl_join {names : List EntryName}
    (hfind : disk.find workingDirectory path = .ok place)
    (h : disk.at? (place ++ names) ≠ none) :
    disk.find workingDirectory (names.foldl (fun path name => path.join (.ofName name)) path) =
      .ok (place ++ names) := by
  induction names generalizing path place with
  | nil =>
    rw [List.foldl_nil, List.append_nil]
    exact hfind
  | cons name names ih =>
    have hspelled : place ++ name :: names = place ++ [name] ++ names := by simp
    have hdirectory := FileTree.directory_of_below h
    rw [hspelled] at h ⊢
    rw [List.foldl_cons]
    exact ih (find_join_name (find_eq_ok.mp hfind).2 hdirectory) h

/-- Names joined to a path lead as far below it. -/
theorem place_foldl_join (names : List EntryName) :
    (names.foldl (fun path name => path.join (.ofName name)) path).place workingDirectory =
      path.place workingDirectory ++ names := by
  induction names generalizing path with
  | nil => rw [List.foldl_nil, List.append_nil]
  | cons name names ih =>
    rw [List.foldl_cons, ih, OsPath.place_join _ (OsPath.isAbsolute_ofName name),
      OsPath.steps_ofName]
    simp [OsPath.move]

end Disk

/-! ## Digests -/

namespace BackupHost

variable {host : BackupHost} {disk later : Disk} {path : OsPath}

/-- A file has the digest and the size that the list gives for it. -/
structure Matches (host : BackupHost) (contents : List UInt8) (listed : ChecksumFile) : Prop where
  digest : lowerHex (host.sha256 contents) = listed.sha256
  size : contents.length = listed.sizeBytes.toNat

/-- The digest and the size of a file are those of its contents. -/
theorem fileSha256Hex_eq_ok {digest : Text} {size : UInt64} :
    host.fileSha256Hex disk path = .ok (digest, size) ↔
      ∃ contents, disk.read host.workingDirectory path = .ok contents ∧
        lowerHex (host.sha256 contents) = digest ∧ contents.length = size.toNat := by
  unfold fileSha256Hex
  split
  · rename_i hread
    simp [hread]
  · rename_i hread
    simp [hread]
  · rename_i contents hread
    have hsize : ∀ size : UInt64, UInt64.ofNat contents.length = size ∧ contents.length < 2 ^ 64 ↔
        contents.length = size.toNat := by
      intro size
      constructor
      · rintro ⟨rfl, hlt⟩
        exact (UInt64.toNat_ofNat_of_lt' hlt).symm
      · intro heq
        exact ⟨by rw [heq, UInt64.ofNat_toNat], heq ▸ size.toNat_lt⟩
    simp only [← hsize, hread, Except.ok.injEq, exists_eq_left']
    split
    · rename_i hlt
      rw [Except.ok.injEq, Prod.mk.injEq]
      exact ⟨fun ⟨hdigest, hlength⟩ => ⟨hdigest, hlength, hlt⟩,
        fun ⟨hdigest, hlength, _⟩ => ⟨hdigest, hlength⟩⟩
    · rename_i hlt
      exact ⟨nofun, fun ⟨_, _, hlt'⟩ => absurd hlt' hlt⟩

/-- Where a listed file leads to from the bundle. -/
def listedPlace (host : BackupHost) (bundle : OsPath) (listed : ChecksumFile) : Place :=
  (bundle.join (.ofText listed.path)).place host.workingDirectory

/-- A file that passes its check is there and is what is listed. -/
theorem verifyChecksum_cases {bundle : OsPath} {listed : ChecksumFile}
    (h : host.verifyChecksum disk bundle listed = .ok ()) :
    ∃ contents, disk.file? (host.listedPlace bundle listed) = some contents ∧
      host.Matches contents listed := by
  unfold verifyChecksum at h
  obtain ⟨⟨digest, size⟩, hdigest, h⟩ := Except.bind_eq_ok.mp h
  obtain ⟨contents, hread, hsha, hlength⟩ := fileSha256Hex_eq_ok.mp hdigest
  obtain ⟨place, hfind, hfile⟩ := Disk.read_eq_ok.mp hread
  obtain ⟨hsame, hsize⟩ := not_or.mp (refuseIf_eq_ok.mp h)
  rw [not_not] at hsame hsize
  rw [Disk.walk_place (Disk.find_eq_ok.mp hfind).2] at hfile
  exact ⟨contents, hfile, hsha.trans hsame, hlength.trans (congrArg UInt64.toNat hsize)⟩

/-! ## What a restore does -/

/-- Every file that a checked bundle lists has been verified. -/
theorem checkBundle_verified {tenant : BackupTenantConfig} {input : OsPath}
    {manifest : TenantBackupManifest} {checksums : ChecksumManifest}
    (h : host.checkBundle tenant input disk = .ok (manifest, checksums)) :
    ∀ listed ∈ checksums.files, host.verifyChecksum disk input listed = .ok () := by
  unfold checkBundle at h
  obtain ⟨manifest', _, h⟩ := Except.bind_eq_ok.mp h
  obtain ⟨_, _, h⟩ := Except.bind_eq_ok.mp h
  obtain ⟨_, _, h⟩ := Except.bind_eq_ok.mp h
  obtain ⟨_, _, h⟩ := Except.bind_eq_ok.mp h
  obtain ⟨_, _, h⟩ := Except.bind_eq_ok.mp h
  obtain ⟨checksums', _, h⟩ := Except.bind_eq_ok.mp h
  obtain ⟨_, hverify, h⟩ := Except.bind_eq_ok.mp h
  cases h
  exact Except.forM_eq_ok.mp hverify

/-- An empty directory is prepared by making it, with those above it that are missing. -/
theorem prepareEmptyDirectory_created {label : String}
    (h : host.prepareEmptyDirectory disk path label = .ok later) :
    disk.createDirAll host.workingDirectory path = .ok later := by
  unfold prepareEmptyDirectory at h
  obtain ⟨_, _, h⟩ := Except.bind_eq_ok.mp h
  exact Except.mapError_eq_ok.mp h

/-- **What a restore has done when it succeeds**: it has made the target and copied the bundle's
snapshot into it. -/
theorem restoreTenant_cases {request : TenantRestoreRequest} {tenant : BackupTenantConfig}
    {manifest : TenantBackupManifest} {checksums : ChecksumManifest} {report : TenantRestoreReport}
    (hload : host.loadSelectedTenantConfig request.configPath request.tenantId = .ok tenant)
    (hcheck : host.checkBundle tenant (.ofText request.input) disk = .ok (manifest, checksums))
    (h : host.restoreTenant request disk = .ok (later, report)) :
    (OsPath.ofText request.targetDataDir).bytes ≠ [] ∧ ∃ prepared,
      disk.createDirAll host.workingDirectory (.ofText request.targetDataDir) = .ok prepared ∧
      host.copyDirectory ((OsPath.ofText request.input).join (.ofText manifest.store.snapshotPath))
        (.ofText request.targetDataDir) prepared = .ok later := by
  unfold restoreTenant at h
  rw [hload] at h
  obtain ⟨tenant', htenant, h⟩ := Except.bind_eq_ok.mp h
  cases htenant
  obtain ⟨_, _, h⟩ := Except.bind_eq_ok.mp h
  obtain ⟨⟨_, _⟩, hchecked, h⟩ := Except.bind_eq_ok.mp h
  cases hcheck.symm.trans hchecked
  obtain ⟨prepared, hprepared, h⟩ := Except.bind_eq_ok.mp h
  obtain ⟨copied, hcopied, h⟩ := Except.bind_eq_ok.mp h
  obtain ⟨_, htarget, h⟩ := Except.bind_eq_ok.mp h
  obtain ⟨files, _, h⟩ := Except.bind_eq_ok.mp h
  cases h
  refine ⟨fun hempty => ?_, prepared, prepareEmptyDirectory_created hprepared, hcopied⟩
  rw [checkDataDirectory, if_pos hempty] at htarget
  cases htarget

/-- Where the target directory held no files, the files below it are those below the directory that
was copied. -/
theorem files_of_copy {prepared : Disk} {source target : OsPath} (hne : target.bytes ≠ [])
    (hprepared : disk.createDirAll host.workingDirectory target = .ok prepared)
    (hcopy : host.copyDirectory source target prepared = .ok later)
    (hnone : NoFiles disk (target.place host.workingDirectory)) :
    ∀ rest, later.file? (target.place host.workingDirectory ++ rest) =
      disk.file? (source.place host.workingDirectory ++ rest) := by
  obtain ⟨hgrows, hdirectory⟩ := Disk.createDirAll_grows hprepared
  obtain ⟨T, hT, hTdirectory⟩ := hdirectory hne
  cases Disk.walk_place hT
  have hsource : prepared.walk host.workingDirectory source =
      .ok (source.place host.workingDirectory) := by
    unfold copyDirectory at hcopy
    cases hdepth : host.depth with
    | zero =>
      rw [hdepth] at hcopy
      cases hcopy
    | succ depth =>
      rw [hdepth] at hcopy
      obtain ⟨S, _, hS, _⟩ := copyDirectoryWith_cases hcopy
      rw [hS, Disk.walk_place hS]
  have hnonePrepared : NoFiles prepared (target.place host.workingDirectory) := by
    intro rest
    rw [hgrows.file?_eq]
    exact hnone rest
  intro rest
  by_cases hbelow : target.place host.workingDirectory <+: source.place host.workingDirectory
  · -- the directory that is copied lies where there are no files
    rw [copyDirectoryWith_noFiles hnonePrepared hbelow hsource hcopy rest]
    obtain ⟨more, hmore⟩ := hbelow
    rw [← hmore, List.append_assoc]
    exact (hnone _).symm
  · have hapart : Place.Apart (source.place host.workingDirectory)
        (target.place host.workingDirectory) := by
      refine ⟨fun habove => ?_, hbelow⟩
      refine copyDirectoryWith_below hsource hT hne habove ?_ hcopy
      intro heq
      exact hbelow (heq ▸ List.prefix_refl _)
    obtain ⟨_, hcopied⟩ := copyDirectoryWith_copied host.depth hcopy hsource hT hne hapart
      hnonePrepared
    rw [hcopied.below, hgrows.file?_eq]

/-! ## What is restored -/

/-- The files below the target were put there by the restore, each of them is listed where it was
copied from and is what is listed, each listed file is there, and each was copied from the
bundle. -/
structure RestoredExactly (host : BackupHost) (disk later : Disk) (bundle : OsPath)
    (snapshot target : Place) (listed : List ChecksumFile) : Prop where
  put : ∀ rest, later.file? (target ++ rest) ≠ none → disk.file? (target ++ rest) = none
  nothingAdded : ∀ rest contents, later.file? (target ++ rest) = some contents →
    ∃ file ∈ listed, host.listedPlace bundle file = snapshot ++ rest ∧ host.Matches contents file
  nothingDropped : ∀ file ∈ listed, ∀ rest, host.listedPlace bundle file = snapshot ++ rest →
    ∃ contents, later.file? (target ++ rest) = some contents ∧ host.Matches contents file
  fromBundle : ∀ rest, later.file? (target ++ rest) ≠ none →
    bundle.place host.workingDirectory <+: snapshot ++ rest

/-- The target holds no files yet, and each file below the directory that is copied lies in the
bundle and is listed. -/
def CopiesListed (host : BackupHost) (disk : Disk) (bundle : OsPath) (snapshot target : Place)
    (listed : List ChecksumFile) : Prop :=
  NoFiles disk target ∧ ∀ rest, disk.file? (snapshot ++ rest) ≠ none →
    bundle.place host.workingDirectory <+: snapshot ++ rest ∧
      ∃ file ∈ listed, host.listedPlace bundle file = snapshot ++ rest

/-- **A restore is exact exactly when** the target held no file before and every file that is copied
lies in the bundle and is listed: a file that is copied from elsewhere, or that no checksum is kept
of, is one that the restore should not have put there. -/
theorem restoredExactly_iff {request : TenantRestoreRequest} {tenant : BackupTenantConfig}
    {manifest : TenantBackupManifest} {checksums : ChecksumManifest} {report : TenantRestoreReport}
    (hload : host.loadSelectedTenantConfig request.configPath request.tenantId = .ok tenant)
    (hcheck : host.checkBundle tenant (.ofText request.input) disk = .ok (manifest, checksums))
    (h : host.restoreTenant request disk = .ok (later, report)) :
    host.RestoredExactly disk later (.ofText request.input)
        (((OsPath.ofText request.input).join (.ofText manifest.store.snapshotPath)).place
          host.workingDirectory)
        ((OsPath.ofText request.targetDataDir).place host.workingDirectory) checksums.files ↔
      host.CopiesListed disk (.ofText request.input)
        (((OsPath.ofText request.input).join (.ofText manifest.store.snapshotPath)).place
          host.workingDirectory)
        ((OsPath.ofText request.targetDataDir).place host.workingDirectory) checksums.files := by
  obtain ⟨hne, prepared, hprepared, hcopy⟩ := restoreTenant_cases hload hcheck h
  have hfiles := files_of_copy hne hprepared hcopy
  have hverified := checkBundle_verified hcheck
  constructor
  · intro hexact
    -- a file that stood below the target would still be one, and the restore did not put it there
    have hnone : NoFiles disk
        ((OsPath.ofText request.targetDataDir).place host.workingDirectory) := by
      intro rest
      by_contra hfile
      have hkept := hfile
      rw [← (Disk.createDirAll_grows hprepared).1.file?_eq] at hkept
      exact hfile (hexact.put rest (copyDirectoryWith_keepsFiles hcopy _ hkept))
    refine ⟨hnone, fun rest hfile => ?_⟩
    rw [← hfiles hnone] at hfile
    refine ⟨hexact.fromBundle rest hfile, ?_⟩
    obtain ⟨contents, hcontents⟩ := Option.ne_none_iff_exists'.mp hfile
    obtain ⟨file, hin, hplace, _⟩ := hexact.nothingAdded rest contents hcontents
    exact ⟨file, hin, hplace⟩
  · rintro ⟨hnone, hlisted⟩
    refine ⟨fun rest _ => hnone rest, fun rest contents hcontents => ?_,
      fun file hin rest hplace => ?_, fun rest hfile => ?_⟩
    · rw [hfiles hnone] at hcontents
      obtain ⟨_, file, hin, hplace⟩ := hlisted rest (by rw [hcontents]; exact Option.some_ne_none _)
      obtain ⟨found, hfound, hmatches⟩ := verifyChecksum_cases (hverified file hin)
      rw [hplace, hcontents] at hfound
      cases hfound
      exact ⟨file, hin, hplace, hmatches⟩
    · obtain ⟨found, hfound, hmatches⟩ := verifyChecksum_cases (hverified file hin)
      rw [hplace] at hfound
      exact ⟨found, (hfiles hnone rest).trans hfound, hmatches⟩
    · rw [hfiles hnone] at hfile
      exact (hlisted rest hfile).1

end BackupHost

end Tangle
