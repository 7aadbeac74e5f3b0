import Mathlib.Data.List.Sort
import Tangle.Host.Disk

/-!
# Backups of tenants

A backup of a tenant is a directory with a copy of the data directory, the redacted configuration, a
list of the checksums of these files and, last, a manifest that holds the digest of the list. A
restore checks the digest and every file of the list, and then copies the directory that the
manifest names. Copying a directory calls itself for the directories in it, as deep as a path can
become.
-/

namespace Tangle

/-! ## Texts -/

/-- `str::from_utf8`. -/
def Text.ofBytes? (bytes : List UInt8) : Option Text :=
  bytes.toByteArray.utf8Decode?.map Array.toList

/-- The digits of a byte. -/
def hexDigits (byte : UInt8) : Text :=
  [Nat.digitChar (byte.toNat / 16), Nat.digitChar (byte.toNat % 16)]

/-- `lower_hex`. -/
def lowerHex (bytes : List UInt8) : Text :=
  bytes.flatMap hexDigits

/-! ## Manifests -/

/-- The texts that the documents and their names consist of. -/
def tangleSpecVersion : Text := "tangle_v1_mvp".toList
def backupSchema : Text := "tangle.tenant.backup.v1".toList
def checksumSchema : Text := "tangle.tenant.checksums.v1".toList
def pocketStoreDir : Text := "pocket_store".toList
def redactedTenantConfig : Text := "tenant_config.redacted.json".toList
def backupManifest : Text := "backup_manifest.json".toList
def checksumManifest : Text := "checksums.json".toList

/-- What a list of checksums says of one file. -/
structure ChecksumFile where
  path : Text
  sha256 : Text
  sizeBytes : UInt64
deriving DecidableEq

/-- The list of checksums. -/
structure ChecksumManifest where
  schema : Text
  algorithm : Text
  files : List ChecksumFile
deriving DecidableEq

/-- What a manifest says of the tenant. -/
structure TenantManifestSource where
  tenantId : Text
  tenantSchema : Text
  host : Text
  relayUrl : Text
  relaySelfPubkey : Option Text
deriving DecidableEq

/-- What a manifest says of the store. -/
structure TenantStoreManifest where
  sourceDataDirectory : Text
  snapshotPath : Text
deriving DecidableEq

/-- The manifest of a bundle. -/
structure TenantBackupManifest where
  schema : Text
  tangleVersion : Text
  tangleSpecVersion : Text
  createdAt : UInt64
  source : TenantManifestSource
  store : TenantStoreManifest
  redactedTenantConfigPath : Text
  checksumManifestPath : Text
  checksumManifestSha256 : Text
  checksumFileCount : UInt64
  includesSecrets : Bool
deriving DecidableEq

/-- How the values of a type are written as JSON and read from it. -/
structure SerdeForm (α : Type) where
  toText : α → Text
  fromText : Text → Except Text α

/-- What is written is read back. -/
def SerdeForm.ReadsBack {α : Type} (form : SerdeForm α) : Prop :=
  ∀ value, form.fromText (form.toText value) = .ok value

/-! ## Tenants and requests -/

/-- What a backup reads of a tenant's configuration. -/
structure BackupTenantConfig where
  tenantId : Text
  tenantSchema : Text
  host : Text
  relayUrl : Text
  relaySelfPubkey : Except Text (Option Text)
  dataDirectory : OsPath
  backupEnabled : Bool
  /-- The configuration without its secrets, as it is written. -/
  redacted : Text

/-- What a backup is asked for. -/
structure TenantBackupRequest where
  configPath : Text
  tenantId : Text
  output : Text
  includeSecrets : Bool

/-- What a restore is asked for. -/
structure TenantRestoreRequest where
  configPath : Text
  tenantId : Text
  input : Text
  targetDataDir : Text

/-- What is reported of a backup. -/
structure TenantBackupReport where
  tenantId : Text
  outputPath : Text
  manifestPath : Text
  checksumManifestPath : Text
  checksumFileCount : UInt64

/-- What is reported of a restore. -/
structure TenantRestoreReport where
  tenantId : Text
  inputPath : Text
  targetDataDir : Text
  restoredFileCount : UInt64

/-- What a backup runs with. -/
structure BackupHost where
  workingDirectory : Place
  /-- How deep a directory can lie in another before its path is too long. -/
  depth : Nat
  loadTangleHostRuntimeConfig : Text → Except Text (List BackupTenantConfig)
  sha256 : List UInt8 → List UInt8
  manifests : SerdeForm TenantBackupManifest
  checksums : SerdeForm ChecksumManifest
  tangleRelayVersion : Text
  nowUnixSeconds : Except Text UInt64

/-- The message of a call that failed on a path. -/
def failedOn (call : String) (path : OsPath) (error : IoError) : Text :=
  (s!"failed to {call} ").toList ++ path.display ++ ": ".toList ++ error.message.toList

/-- A check that ends a call with a message. -/
def refuseIf (refused : Prop) [Decidable refused] (message : Text) : Except Text Unit :=
  if refused then .error message else .ok ()

/-- A check passes when what it refuses does not hold. -/
theorem refuseIf_eq_ok {refused : Prop} [Decidable refused] {message : Text} :
    refuseIf refused message = .ok () ↔ ¬ refused := by
  unfold refuseIf
  split
  · rename_i h
    simp [h]
  · rename_i h
    simp [h]

/-- A message about a path. -/
def messageOn (message : String) (path : OsPath) : Text :=
  message.toList ++ ": ".toList ++ path.display

namespace BackupHost

variable (host : BackupHost)

/-- `load_selected_tenant_config`. -/
def loadSelectedTenantConfig (configPath tenantId : Text) : Except Text BackupTenantConfig := do
  let tenants ← host.loadTangleHostRuntimeConfig configPath
  Except.okOr (tenants.find? fun tenant => tenant.tenantId == tenantId)
    ("tenant not found: ".toList ++ tenantId)

/-! ## Files -/

/-- The digest of a file and its size. -/
def fileSha256Hex (disk : Disk) (path : OsPath) : Except Text (Text × UInt64) :=
  match disk.read host.workingDirectory path with
  | .error .isADirectory => .error (failedOn "read" path .isADirectory)
  | .error error => .error (failedOn "open" path error)
  | .ok contents =>
    if contents.length < 2 ^ 64 then
      .ok (lowerHex (host.sha256 contents), .ofNat contents.length)
    else
      .error ("file ".toList ++ path.display ++ " exceeds u64 size".toList)

/-- `fs::read_to_string`. -/
def readToString (disk : Disk) (path : OsPath) : Except Text Text := do
  let contents ← (disk.read host.workingDirectory path).mapError (failedOn "read" path)
  Except.okOr (Text.ofBytes? contents) (failedOn "read" path .invalidData)

/-- Writes the text of a value. The directory of the file is there. -/
def writeJsonFile (disk : Disk) (path : OsPath) (raw : Text) : Except Text Disk :=
  (disk.write host.workingDirectory path raw.toBytes).mapError (failedOn "write" path)

/-- The check that nothing is in a directory, which is made where there is something. -/
def checkEmptyDirectory (disk : Disk) (path : OsPath) (label : String) : Except Text Unit :=
  if disk.pathExists host.workingDirectory path then do
    refuseIf (disk.isDir host.workingDirectory path = false)
      (messageOn s!"{label} is not a directory" path)
    let names ← (disk.readDir host.workingDirectory path).mapError (failedOn "read" path)
    refuseIf (names ≠ []) (messageOn s!"{label} must be empty" path)
  else
    .ok ()

/-- `prepare_empty_directory`. -/
def prepareEmptyDirectory (disk : Disk) (path : OsPath) (label : String) : Except Text Disk := do
  host.checkEmptyDirectory disk path label
  (disk.createDirAll host.workingDirectory path).mapError (failedOn "create" path)

/-- Copies one entry of a directory, where `copy` copies a directory. -/
def copyEntry (copy : OsPath → OsPath → Disk → Except Text Disk) (source target : OsPath)
    (disk : Disk) (name : EntryName) : Except Text Disk := do
  let sourcePath := source.join (.ofName name)
  let targetPath := target.join (.ofName name)
  match ← (disk.metadata host.workingDirectory sourcePath).mapError
    (failedOn "stat" sourcePath) with
  | .directory => copy sourcePath targetPath disk
  | .file contents =>
    (disk.write host.workingDirectory targetPath contents).mapError fun error =>
      "failed to copy ".toList ++ sourcePath.display ++ " to ".toList ++ targetPath.display ++
        ": ".toList ++ error.message.toList

/-- Copies a directory that lies so deep: `copy_directory` calls itself for each directory in it. -/
def copyDirectoryWith : Nat → OsPath → OsPath → Disk → Except Text Disk
  | 0, _, target, _ => .error (failedOn "create" target .nameTooLong)
  | depth + 1, source, target, disk => do
    refuseIf (disk.isDir host.workingDirectory source = false)
      (messageOn "source directory does not exist" source)
    let disk ← (disk.createDirAll host.workingDirectory target).mapError (failedOn "create" target)
    let names ← (disk.readDir host.workingDirectory source).mapError (failedOn "read" source)
    names.foldlM (host.copyEntry (copyDirectoryWith depth) source target) disk

/-- `copy_directory`. -/
def copyDirectory (source target : OsPath) (disk : Disk) : Except Text Disk :=
  host.copyDirectoryWith host.depth source target disk

/-- The files below a place of a directory, which is given by the names that lead to it from the
directory. -/
def collectFilesWith (disk : Disk) (root : OsPath) :
    Nat → List EntryName → Except Text (List (List EntryName))
  | 0, names => .error
    (failedOn "stat" (names.foldl (fun path name => path.join (.ofName name)) root)
      .nameTooLong)
  | depth + 1, names => do
    let path := names.foldl (fun path name => path.join (.ofName name)) root
    if ¬ disk.pathExists host.workingDirectory path then
      return []
    match ← (disk.metadata host.workingDirectory path).mapError (failedOn "stat" path) with
    | .file _ => return [names]
    | .directory =>
      let entries ← (disk.readDir host.workingDirectory path).mapError (failedOn "read" path)
      let kept := entries.filter fun name =>
        ¬ (names = [] ∧ (name.bytes = backupManifest.toBytes ∨
          name.bytes = checksumManifest.toBytes))
      return (← kept.mapM fun name => collectFilesWith disk root depth (names ++ [name])).flatten

/-- The files below a directory, in the order of their paths. A file may lie as deep as the deepest
directory that is copied and one level more. -/
def collectFiles (disk : Disk) (root : OsPath) : Except Text (List (List EntryName)) := do
  let files ← host.collectFilesWith disk root (host.depth + 1) []
  return files.mergeSort (· ≤ ·)

/-- The path of a file from the directory it was found in. -/
def relativePathString (names : List EntryName) : Except Text Text := do
  let path : OsPath := ⟨[separator].intercalate (names.map EntryName.bytes)⟩
  let parts ← names.mapM fun name =>
    Except.okOr (Text.ofBytes? name.bytes) (messageOn "path is not UTF-8" path)
  return ['/'].intercalate parts

/-- `collect_checksums`. -/
def collectChecksums (disk : Disk) (root : OsPath) : Except Text (List ChecksumFile) := do
  let files ← host.collectFiles disk root
  files.mapM fun names => do
    let relative ← relativePathString names
    let (sha256, sizeBytes) ← host.fileSha256Hex disk
      (names.foldl (fun path name => path.join (.ofName name)) root)
    return ⟨relative, sha256, sizeBytes⟩

/-! ## Reading a bundle -/

/-- `read_backup_manifest`. -/
def readBackupManifest (disk : Disk) (path : OsPath) : Except Text TenantBackupManifest := do
  let raw ← host.readToString disk path
  (host.manifests.fromText raw).mapError ("backup manifest JSON is invalid: ".toList ++ ·)

/-- `read_checksum_manifest`: the schema and the algorithm have to be the known ones. -/
def readChecksumManifest (disk : Disk) (path : OsPath) : Except Text ChecksumManifest := do
  let raw ← host.readToString disk path
  let manifest ← (host.checksums.fromText raw).mapError
    ("checksum manifest JSON is invalid: ".toList ++ ·)
  refuseIf (manifest.schema ≠ checksumSchema)
    ("unsupported checksum schema: ".toList ++ manifest.schema)
  refuseIf (manifest.algorithm ≠ "sha256".toList)
    ("unsupported checksum algorithm: ".toList ++ manifest.algorithm)
  return manifest

/-- One step of `verify_checksums`. -/
def verifyChecksum (disk : Disk) (root : OsPath) (expected : ChecksumFile) : Except Text Unit := do
  let (sha256, sizeBytes) ← host.fileSha256Hex disk (root.join (.ofText expected.path))
  refuseIf (sha256 ≠ expected.sha256 ∨ sizeBytes ≠ expected.sizeBytes)
    ("backup checksum mismatch for ".toList ++ expected.path)

/-- `verify_checksums`: only the files that the list names are looked at. -/
def verifyChecksums (disk : Disk) (root : OsPath) (files : List ChecksumFile) : Except Text Unit :=
  forM files (host.verifyChecksum disk root)

/-! ## Backup and restore -/

/-- `tenant_manifest_source`. -/
def tenantManifestSource (tenant : BackupTenantConfig) : Except Text TenantManifestSource := do
  return {
    tenantId := tenant.tenantId
    tenantSchema := tenant.tenantSchema
    host := tenant.host
    relayUrl := tenant.relayUrl
    relaySelfPubkey := ← tenant.relaySelfPubkey }

/-- `redacted_tenant_config_value`, which fails where the key of the relay cannot be read. -/
def redactedTenantConfigValue (tenant : BackupTenantConfig) : Except Text Text := do
  let _ ← tenant.relaySelfPubkey
  return tenant.redacted

/-- **`backup_tenant`**. -/
def backupTenant (request : TenantBackupRequest) (disk : Disk) :
    Except Text (Disk × TenantBackupReport) := do
  refuseIf (request.includeSecrets = true)
    "including tenant secrets in backups is unsupported".toList
  let tenant ← host.loadSelectedTenantConfig request.configPath request.tenantId
  refuseIf (tenant.backupEnabled = false)
    ("tenant backup is disabled for ".toList ++ tenant.tenantId)
  let output := OsPath.ofText request.output
  let disk ← host.prepareEmptyDirectory disk output "backup output"
  let snapshotPath := output.join (.ofText pocketStoreDir)
  let disk ← host.copyDirectory tenant.dataDirectory snapshotPath disk
  let redactedPath := output.join (.ofText redactedTenantConfig)
  let disk ← host.writeJsonFile disk redactedPath (← redactedTenantConfigValue tenant)
  let checksums : ChecksumManifest := {
    schema := checksumSchema
    algorithm := "sha256".toList
    files := ← host.collectChecksums disk output }
  let checksumPath := output.join (.ofText checksumManifest)
  let disk ← host.writeJsonFile disk checksumPath (host.checksums.toText checksums)
  let (checksumManifestSha256, _) ← host.fileSha256Hex disk checksumPath
  let source ← tenantManifestSource tenant
  let manifest : TenantBackupManifest := {
    schema := backupSchema
    tangleVersion := host.tangleRelayVersion
    tangleSpecVersion := tangleSpecVersion
    createdAt := ← host.nowUnixSeconds
    source := source
    store := {
      sourceDataDirectory := tenant.dataDirectory.display
      snapshotPath := pocketStoreDir }
    redactedTenantConfigPath := redactedTenantConfig
    checksumManifestPath := checksumManifest
    checksumManifestSha256 := checksumManifestSha256
    checksumFileCount := .ofNat checksums.files.length
    includesSecrets := false }
  let manifestPath := output.join (.ofText backupManifest)
  let disk ← host.writeJsonFile disk manifestPath (host.manifests.toText manifest)
  return (disk, {
    tenantId := tenant.tenantId
    outputPath := output.display
    manifestPath := manifestPath.display
    checksumManifestPath := checksumPath.display
    checksumFileCount := .ofNat checksums.files.length })

/-- The checks of a restore: the manifests of a bundle that passes them. -/
def checkBundle (tenant : BackupTenantConfig) (input : OsPath) (disk : Disk) :
    Except Text (TenantBackupManifest × ChecksumManifest) := do
  let manifest ← host.readBackupManifest disk (input.join (.ofText backupManifest))
  refuseIf (manifest.schema ≠ backupSchema) ("unsupported backup schema: ".toList ++
    manifest.schema)
  refuseIf (manifest.source.tenantId ≠ tenant.tenantId)
    ("backup tenant ".toList ++ manifest.source.tenantId ++
      " does not match requested tenant ".toList ++ tenant.tenantId)
  let checksumPath := input.join (.ofText manifest.checksumManifestPath)
  let (actualChecksumManifestSha256, _) ← host.fileSha256Hex disk checksumPath
  refuseIf (actualChecksumManifestSha256 ≠ manifest.checksumManifestSha256)
    "backup checksum manifest digest mismatch".toList
  let checksumManifest ← host.readChecksumManifest disk checksumPath
  host.verifyChecksums disk input checksumManifest.files
  return (manifest, checksumManifest)

/-- `PocketStoreConfig::new`. -/
def checkDataDirectory (path : OsPath) : Except Text Unit :=
  if path.bytes = [] then .error "pocket.data_directory must not be empty".toList else .ok ()

/-- A restore, up to where the restored store is opened. -/
def restoreTenant (request : TenantRestoreRequest) (disk : Disk) :
    Except Text (Disk × TenantRestoreReport) := do
  let tenant ← host.loadSelectedTenantConfig request.configPath request.tenantId
  refuseIf (tenant.backupEnabled = false)
    ("tenant backup is disabled for ".toList ++ tenant.tenantId)
  let input := OsPath.ofText request.input
  let (manifest, _) ← host.checkBundle tenant input disk
  let target := OsPath.ofText request.targetDataDir
  let disk ← host.prepareEmptyDirectory disk target "restore target data directory"
  let disk ← host.copyDirectory (input.join (.ofText manifest.store.snapshotPath)) target disk
  checkDataDirectory target
  let files ← host.collectFiles disk target
  return (disk, {
    tenantId := tenant.tenantId
    inputPath := input.display
    targetDataDir := target.display
    restoredFileCount := .ofNat files.length })

end BackupHost

end Tangle
