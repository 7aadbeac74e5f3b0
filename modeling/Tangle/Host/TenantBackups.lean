import Mathlib.Data.List.Infix
import Tangle.Host.RoundTrips
import Tangle.Host.Tenants

/-!
# What backups of tenants copy

The data directory of a tenant is spelled in bytes. The check of the configuration takes its
components (`OsPath.toPathBuf`), and the disk is walked along its steps; where the walk goes
through, both lead to one place (`OsPath.resolve_toPathBuf`). A backup copies what is below the data
directory of its tenant and nothing else (`BackupHost.Bundle`), so tenants with directories apart
copy nothing of each other (`BackupHost.keepsOut_of_disjointAt`).
-/

namespace Tangle

/-! ## The components of a path -/

/-- Bytes that the separator is not among are other numbers than the separator's. -/
theorem toNat_ne_separator {bytes : List UInt8} (h : separator ∉ bytes) :
    ∀ byte ∈ bytes, byte.toNat ≠ 0x2F := by
  intro byte hbyte heq
  have hseparator : byte = separator := UInt8.toNat_inj.mp heq
  exact h (hseparator ▸ hbyte)

/-- The name of an entry names a file. -/
def EntryName.toFileName (name : EntryName) : FileName :=
  ⟨name.bytes, name.isEntryName.1, toNat_ne_separator name.isEntryName.2.2.2.1⟩

/-- What stands between separators, as a component: nothing and `.` are none. -/
def Component.ofBytes (bytes : List UInt8) : Option Component :=
  if hnil : bytes = [] then none
  else if bytes = [0x2E] then none
  else if bytes = [0x2E, 0x2E] then some .parentDir
  else if hseparator : separator ∉ bytes then
    some (.normal ⟨bytes, hnil, toNat_ne_separator hseparator⟩)
  else none

theorem Component.ofBytes_ne_rootDir (bytes : List UInt8) : ofBytes bytes ≠ some .rootDir := by
  unfold ofBytes
  split_ifs <;> exact fun h => by cases h

/-- The component that a step is. -/
theorem Component.ofBytes_eq (bytes : List UInt8) (h : PathStep.ofBytes bytes ≠ .invalid) :
    ofBytes bytes = match PathStep.ofBytes bytes with
      | .here | .invalid => none
      | .up => some .parentDir
      | .name name => some (.normal name.toFileName) := by
  unfold PathStep.ofBytes at h ⊢
  unfold ofBytes
  by_cases hnil : bytes = []
  · rw [dif_pos hnil, if_pos (.inl hnil)]
  by_cases hdot : bytes = [0x2E]
  · rw [dif_neg hnil, if_pos hdot, if_pos (.inr hdot)]
  rw [if_neg (not_or.mpr ⟨hnil, hdot⟩)] at h ⊢
  rw [dif_neg hnil, if_neg hdot]
  by_cases hdots : bytes = [0x2E, 0x2E]
  · rw [if_pos hdots, if_pos hdots]
  rw [if_neg hdots] at h ⊢
  rw [if_neg hdots]
  by_cases hname : IsEntryName bytes
  · rw [dif_pos hname, dif_pos hname.2.2.2.1]
    rfl
  · rw [dif_neg hname] at h
    exact absurd rfl h

namespace OsPath

/-- `Path::components`: a `.` is a component only where the path starts with it. -/
def toPathBuf (path : OsPath) : PathBuf where
  absolute := path.isAbsolute
  rest := (if (splitSeparators path.bytes).head? = some [0x2E] then [.curDir] else []) ++
    (splitSeparators path.bytes).filterMap Component.ofBytes
  noRoot hroot := by
    rcases List.mem_append.mp hroot with hstart | hrest
    · split at hstart
      · cases List.mem_singleton.mp hstart
      · exact List.not_mem_nil hstart
    · obtain ⟨bytes, _, hbytes⟩ := List.mem_filterMap.mp hrest
      exact Component.ofBytes_ne_rootDir bytes hbytes

variable {path : OsPath} {workingDirectory : Place}

/-- One component leads where its step leads. -/
theorem foldl_resolveComponent_steps {parts : List (List UInt8)} (place : Place)
    (h : ∀ bytes ∈ parts, PathStep.ofBytes bytes ≠ .invalid) :
    (parts.filterMap Component.ofBytes).foldl resolveComponent (place.map EntryName.toFileName) =
      ((parts.map PathStep.ofBytes).foldl move place).map EntryName.toFileName := by
  induction parts generalizing place with
  | nil => rfl
  | cons bytes parts ih =>
    have hcomponent := Component.ofBytes_eq bytes (h bytes List.mem_cons_self)
    have hrest := fun place : Place =>
      ih place fun other hother => h other (List.mem_cons_of_mem _ hother)
    rw [List.map_cons, List.foldl_cons, ← hrest]
    cases hstep : PathStep.ofBytes bytes with
    | invalid => exact absurd hstep (h bytes List.mem_cons_self)
    | here =>
      rw [hstep] at hcomponent
      rw [List.filterMap_cons_none hcomponent]
      rfl
    | up =>
      rw [hstep] at hcomponent
      rw [List.filterMap_cons_some hcomponent, List.foldl_cons, resolveComponent, move,
        List.map_dropLast]
    | name name =>
      rw [hstep] at hcomponent
      rw [List.filterMap_cons_some hcomponent, List.foldl_cons, resolveComponent, move,
        List.map_append, List.map_singleton]

/-- **Components and steps lead to one place** when every step can be taken. The components are the
steps without those that lead nowhere, and the root is where an absolute path starts. -/
theorem resolve_toPathBuf (h : .invalid ∉ path.steps) :
    path.toPathBuf.resolve (workingDirectory.map EntryName.toFileName) =
      (path.place workingDirectory).map EntryName.toFileName := by
  have hvalid : ∀ bytes ∈ splitSeparators path.bytes, PathStep.ofBytes bytes ≠ .invalid :=
    fun bytes hbytes hstep => h (hstep ▸ List.mem_map_of_mem hbytes)
  have hcurDir : ∀ place : List FileName,
      (if (splitSeparators path.bytes).head? = some [0x2E] then [Component.curDir] else []).foldl
        resolveComponent place = place := by
    intro place
    split <;> rfl
  unfold PathBuf.resolve PathBuf.components
  rw [OsPath.place, OsPath.start, OsPath.steps]
  by_cases habsolute : path.isAbsolute = true
  · rw [toPathBuf, if_pos habsolute, if_pos habsolute, List.foldl_cons, List.foldl_append, hcurDir]
    exact foldl_resolveComponent_steps [] hvalid
  · rw [toPathBuf, if_neg habsolute, if_neg habsolute, List.foldl_append, hcurDir]
    exact foldl_resolveComponent_steps _ hvalid

/-- Along a path that is walked every step can be taken. -/
theorem valid_of_walk {disk : Disk} {place : Place}
    (h : disk.walk workingDirectory path = .ok place) : .invalid ∉ path.steps := by
  have hfold : ∀ {steps : List PathStep} {start : Place},
      steps.foldlM disk.enter start = .ok place → .invalid ∉ steps := by
    intro steps
    induction steps with
    | nil => exact fun _ => List.not_mem_nil
    | cons step steps ih =>
      intro start hsteps
      obtain ⟨next, hnext, hrest⟩ := Except.foldlM_cons_ok.mp hsteps
      rw [List.mem_cons, not_or]
      exact ⟨Ne.symm (Disk.enter_eq_ok.mp hnext).2.1, ih hrest⟩
  exact hfold h

end OsPath

/-! ## What a backup copies -/

namespace BackupHost

variable {host : BackupHost} {directory other : OsPath}

/-- A backup into an empty directory of a tenant with one data directory copies files below it, and
none of them lies in the other directory. -/
def KeepsOut (host : BackupHost) (directory other : OsPath) : Prop :=
  ∀ (request : TenantBackupRequest) (tenant : BackupTenantConfig) (disk output written : Disk)
    (report : TenantBackupReport),
    host.loadSelectedTenantConfig request.configPath request.tenantId = .ok tenant →
    tenant.dataDirectory = directory →
    host.prepareEmptyDirectory disk (.ofText request.output) "backup output" = .ok output →
    (∀ name, output.at?
      ((OsPath.ofText request.output).place host.workingDirectory ++ [name]) = none) →
    host.backupTenant request disk = .ok (written, report) →
    ∀ rest contents, written.file? ((OsPath.ofText request.output).place host.workingDirectory ++
        [pocketStoreName] ++ rest) = some contents →
      disk.file? (directory.place host.workingDirectory ++ rest) = some contents ∧
        ¬ other.toPathBuf.resolve (host.workingDirectory.map EntryName.toFileName) <+:
          (directory.place host.workingDirectory ++ rest).map EntryName.toFileName

/-- **A backup copies nothing of a directory apart.** Its bundle holds the files below the data
directory of the tenant, and a place below that is below no directory disjoint from it. -/
theorem keepsOut_of_disjointAt
    (h : PathBuf.DisjointAt (host.workingDirectory.map EntryName.toFileName) directory.toPathBuf
      other.toPathBuf) : host.KeepsOut directory other := by
  intro request tenant disk output written report hload hdirectory hprepared hempty hbackup rest
    contents hcontents
  subst hdirectory
  obtain ⟨manifest, files, hbundle⟩ := bundle_of_backup hload hprepared hempty hbackup
  rw [hbundle.copied] at hcontents
  refine ⟨hcontents, fun hbelow => ?_⟩
  obtain ⟨_, copied, _, _, _, _, _, _, hcopy, _⟩ := backupTenant_cases hload hprepared hbackup
  have hvalid : .invalid ∉ tenant.dataDirectory.steps := by
    unfold copyDirectory at hcopy
    cases hdepth : host.depth with
    | zero =>
      rw [hdepth] at hcopy
      cases hcopy
    | succ depth =>
      rw [hdepth] at hcopy
      obtain ⟨_, _, hwalk, _⟩ := copyDirectoryWith_cases hcopy
      exact OsPath.valid_of_walk hwalk
  refine h _ ⟨?_, hbelow⟩
  rw [OsPath.resolve_toPathBuf hvalid, List.map_append]
  exact List.prefix_append _ _

end BackupHost

/-! ## Accepted sets -/

/-- **Every set, every working directory.** The directories of an accepted set are disjoint exactly
when they are apart, and two tenants whose directories are disjoint are accepted exactly when
directories of their spelling meet. Of tenants whose directories are apart no backup copies a file
that is in the directory of another. -/
theorem tenants_share_iff (pocket : PocketTypes) :
    (∀ tenants : List TenantRuntimeConfig, (validateTenantConfigSet pocket tenants).Succeeds →
      ((∀ workingDirectory, tenants.Pairwise fun tenant other =>
          PathBuf.DisjointAt workingDirectory tenant.dataDirectory other.dataDirectory) ↔
        tenants.Pairwise fun tenant other =>
          PathBuf.Apart tenant.dataDirectory other.dataDirectory)) ∧
    (∀ (tenant other : TenantRuntimeConfig) (directory : PathBuf),
      (validateTenantConfigSet pocket
        [tenant, { other with dataDirectory := directory }]).Succeeds →
      ((∀ workingDirectory,
          PathBuf.DisjointAt workingDirectory tenant.dataDirectory other.dataDirectory →
            (validateTenantConfigSet pocket [tenant, other]).Succeeds) ↔
        (PathBuf.SpelledAlike tenant.dataDirectory other.dataDirectory →
          PathBuf.Meets tenant.dataDirectory other.dataDirectory))) ∧
    ∀ tenants : List TenantRuntimeConfig, (validateTenantConfigSet pocket tenants).Succeeds →
      (tenants.Pairwise fun tenant other =>
        PathBuf.Apart tenant.dataDirectory other.dataDirectory) →
      tenants.Pairwise fun tenant other => ∀ (host : BackupHost) (path otherPath : OsPath),
        path.toPathBuf = tenant.dataDirectory → otherPath.toPathBuf = other.dataDirectory →
        host.KeepsOut path otherPath ∧ host.KeepsOut otherPath path := by
  refine ⟨fun tenants _ => ⟨fun h => ?_, fun h workingDirectory => ?_⟩,
    fun tenant other directory hothers => ?_, fun tenants _ h => ?_⟩
  · rw [List.pairwise_iff_forall_sublist]
    intro tenant other hsub
    exact PathBuf.disjointAt_iff_apart.mp fun workingDirectory =>
      (h workingDirectory).forall_sublist hsub
  · exact h.imp fun hapart => PathBuf.disjointAt_iff_apart.mpr hapart workingDirectory
  · rw [accepted_iff_keys hothers, ne_eq, canonicalPathKey_eq_iff]
    constructor
    · intro h hspelled
      refine (PathBuf.not_disjointAt_iff_meets hspelled).mp fun workingDirectory hdisjoint => ?_
      exact h workingDirectory hdisjoint hspelled
    · intro h workingDirectory hdisjoint hspelled
      exact (PathBuf.not_disjointAt_iff_meets hspelled).mpr (h hspelled) workingDirectory hdisjoint
  · refine h.imp fun hapart host path otherPath hpath hother => ?_
    rw [← hpath, ← hother] at hapart
    have hdisjoint := PathBuf.disjointAt_iff_apart.mpr hapart
    exact ⟨BackupHost.keepsOut_of_disjointAt (hdisjoint _),
      BackupHost.keepsOut_of_disjointAt (hdisjoint _).symm⟩

namespace Sample

/-- The data directory of the tenant whose backup is taken, and one beside it. -/
def farmStorePath : OsPath := bundleTenant.dataDirectory
def shopStorePath : OsPath := .ofText "shop".toList

/-- Two tenants of a set have directories related as those of the set are. -/
theorem related_of_pairwise {related : PathBuf → PathBuf → Prop} {path otherPath : PathBuf}
    (h : [tenantOf "a" path, tenantOf "b" otherPath].Pairwise fun tenant other =>
      related tenant.dataDirectory other.dataDirectory) : related path otherPath := by
  rw [List.pairwise_pair] at h
  exact h

end Sample

open Sample in
/-- A tenant with its directory inside another's is accepted, since the two keys are different
texts, and one with a sibling's name is refused, since a relative path that climbs has the sibling's
key. -/
theorem tenants_share :
    (validateTenantConfigSet pocket [tenantOf "a" dataPath, tenantOf "b" shopPath]).Succeeds ∧
      ¬ PathBuf.DisjointAt [] dataPath shopPath ∧
      ¬ (validateTenantConfigSet pocket
        [tenantOf "a" dataPath, tenantOf "b" siblingPath]).Succeeds ∧
      PathBuf.DisjointAt [shopName] dataPath siblingPath := by
  refine ⟨by decide +kernel, ?_, by decide +kernel, ?_⟩
  · rw [PathBuf.disjointAt_iff, not_not]
    exact .inl (by decide)
  · rw [PathBuf.disjointAt_iff]
    intro hmeet
    rcases hmeet with hmeet | hmeet
    · exact absurd hmeet (by decide)
    · exact absurd hmeet (by decide)

open Sample in
/-- Two tenants with directories beside each other are accepted and apart, and the backup of one
copies its own file; a tenant with a sibling's name is refused although it is apart from
somewhere. -/
theorem tenants_share_iff_apart :
    (∀ workingDirectory, PathBuf.DisjointAt workingDirectory farmStorePath.toPathBuf
      shopStorePath.toPathBuf) ∧
    (¬ ∀ workingDirectory, PathBuf.DisjointAt workingDirectory dataPath siblingPath →
      (validateTenantConfigSet pocket
        [tenantOf "a" dataPath, tenantOf "b" siblingPath]).Succeeds) ∧
    ∃ written report, bundleHost.backupTenant backupFarm farmDisk = .ok (written, report) ∧
      written.file? [bundleName, pocketStoreName, dataFileName] = some [0x61] ∧
      ∀ rest contents, written.file? ([bundleName] ++ [pocketStoreName] ++ rest) = some contents →
        farmDisk.file? (farmStorePath.place [] ++ rest) = some contents ∧
          ¬ shopStorePath.toPathBuf.resolve [] <+:
            (farmStorePath.place [] ++ rest).map EntryName.toFileName := by
  have haccepted : (validateTenantConfigSet pocket
      [tenantOf "a" farmStorePath.toPathBuf, tenantOf "b" shopStorePath.toPathBuf]).Succeeds := by
    decide +kernel
  have hups : shopStorePath.toPathBuf.ups - farmStorePath.toPathBuf.ups = 0 ∧
      farmStorePath.toPathBuf.ups - shopStorePath.toPathBuf.ups = 0 := by
    decide +kernel
  have hnames : ¬ Comparable farmStorePath.toPathBuf.names shopStorePath.toPathBuf.names := by
    rw [Comparable]
    decide +kernel
  have hapart : PathBuf.Apart farmStorePath.toPathBuf shopStorePath.toPathBuf := by
    refine ⟨rfl, fun k hk => ?_, fun k hk => ?_⟩
    · cases Nat.le_zero.mp (hups.1 ▸ hk)
      exact hnames
    · cases Nat.le_zero.mp (hups.2 ▸ hk)
      exact fun hmeet => hnames hmeet.symm
  have hothers : (validateTenantConfigSet pocket
      [tenantOf "a" dataPath, { tenantOf "b" siblingPath with dataDirectory :=
        shopPath }]).Succeeds := by
    decide +kernel
  have hspelled : PathBuf.SpelledAlike dataPath siblingPath := by
    rw [PathBuf.SpelledAlike]
    decide +kernel
  have hnot : ¬ PathBuf.Meets dataPath siblingPath := by
    rw [PathBuf.Meets]
    decide +kernel
  have hall := ((tenants_share_iff pocket).1 _ haccepted).mpr (List.pairwise_pair.mpr hapart)
  have hkeeps := (List.pairwise_pair.mp ((tenants_share_iff pocket).2.2 _ haccepted
    (List.pairwise_pair.mpr hapart)) bundleHost farmStorePath shopStorePath rfl rfl).1
  obtain ⟨report, hbackup⟩ := backupTenant_farm
  obtain ⟨output, houtput, hempty⟩ := emptyOutput_farm
  refine ⟨fun workingDirectory => related_of_pairwise (hall workingDirectory),
    fun haccepts => hnot (((tenants_share_iff pocket).2.1 _ _ _ hothers).mp haccepts hspelled),
    bundleDisk, report, hbackup, by decide +kernel, ?_⟩
  exact hkeeps backupFarm bundleTenant farmDisk output bundleDisk report rfl rfl houtput hempty
    hbackup

end Tangle
