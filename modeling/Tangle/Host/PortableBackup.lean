import Tangle.Host.Backup
import Tangle.Host.Stages
import Tangle.Pocket.EventScans
import Tangle.Protocol.Json
import Tangle.Protocol.Scalars

/-!
# Portable backups

A portable backup is a directory with a file of events, one JSON line for each event of the store
and where it lay there, and a manifest that holds the digest, the size and the count of that file.
It is made in a stage, verified there, and renamed to where it is asked for. A restore verifies the
backup again and stores its events in a new store, which is made in a stage of its own.

The writer, the verifier and the restore read the lines each in a loop of its own. Of the Pocket
library's store the model takes what it does to a data directory and how it answers for the events
there (`PocketStores`); the scan of a store is the program's own loop over these answers
(`PocketStores.scanEvents`).
-/

namespace Tangle

/-! ## Events -/

/-- An event as the Pocket library holds it, with its signature; what its tags and its content hold
is bytes. -/
structure SignedPocketEvent where
  id : EventId
  pubkey : PublicKeyHex
  createdAt : UInt64
  kind : UInt16
  tags : List (List (List UInt8))
  content : List UInt8
  sig : SignatureHex
deriving DecidableEq

/-- An event of a store with its place. -/
structure ScannedEvent where
  event : SignedPocketEvent
  storeOffset : UInt64
deriving DecidableEq

/-- What is in a data directory. -/
abbrev DataDirectory : Type := FileTree.Directory EntryName (List UInt8)

/-- What the Pocket library does to a data directory, and what it finds there. An event that is
found is a slice of memory with at least its header, which bounds where it can lie. -/
structure PocketStores where
  opened : DataDirectory → Except String DataDirectory
  synced : DataDirectory → Except String DataDirectory
  storeEvent : DataDirectory → SignedPocketEvent → Except String DataDirectory
  /-- `event_bytes` of the store's statistics. -/
  eventBytes : DataDirectory → Except String UInt64
  /-- `get_event_by_offset`. -/
  eventByOffset : DataDirectory → UInt64 → Except String SignedPocketEvent
  /-- The bytes an event takes. -/
  eventLen : SignedPocketEvent → Nat
  inMemory : ∀ {directory : DataDirectory} {offset : UInt64} {event : SignedPocketEvent},
    eventByOffset directory offset = .ok event →
      0 < eventLen event ∧ offset.toNat + eventLen event ≤ maxMemoryBytes

namespace PocketStores

variable (stores : PocketStores)

/-- What a scan asks of a data directory whose map has these bytes. -/
def scan (directory : DataDirectory) (eventBytes : UInt64) :
    EventScan SignedPocketEvent ScannedEvent where
  eventBytes := eventBytes
  eventByOffset := stores.eventByOffset directory
  eventLen := stores.eventLen
  stored offset event := ⟨event, offset⟩

/-- What a store scans lies in memory: Rust bounds the bytes of a file that is mapped. -/
theorem scan_inMemory (directory : DataDirectory) (eventBytes : UInt64) :
    (stores.scan directory eventBytes).InMemory :=
  fun h => stores.inMemory h

/-- `scan_events`. -/
def scanEvents (directory : DataDirectory) : Except String (List ScannedEvent) := do
  let eventBytes ← stores.eventBytes directory
  (stores.scan directory eventBytes).allEvents (stores.scan_inMemory directory eventBytes)

/-- `store_event` of a store that flushes on every write. -/
def storeFlushed (directory : DataDirectory) (event : SignedPocketEvent) :
    Except String DataDirectory := do
  let directory ← stores.storeEvent directory event
  stores.synced directory

end PocketStores

/-! ## Limits and identities -/

/-- `PORTABLE_BACKUP_SCHEMA`. -/
def portableSchema : Text := "tangle.portable-relay-backup.v1".toList
def portableManifestFile : Text := "manifest.json".toList
def portableEventsFile : Text := "events.jsonl".toList
def pocketSourceRevision : Text := "d24cf774a31978cf83d2b7289a618d3959bcc645".toList

/-- How many events, how long a line and how large a file a backup may have. -/
structure PortableRelayBackupPolicy where
  maximumEventCount : UInt64
  maximumEventJsonBytes : UInt64
  maximumBackupBytes : UInt64
  valid : maximumEventCount ≠ 0 ∧ maximumEventJsonBytes ≠ 0 ∧ maximumBackupBytes ≠ 0 ∧
    maximumEventJsonBytes ≤ maximumBackupBytes

/-- `PortableRelayBackupPolicy::new`: no bound is zero. -/
def PortableRelayBackupPolicy.new (maximumEventCount maximumEventJsonBytes maximumBackupBytes :
    UInt64) : Except Text PortableRelayBackupPolicy :=
  if h : maximumEventCount ≠ 0 ∧ maximumEventJsonBytes ≠ 0 ∧ maximumBackupBytes ≠ 0 ∧
      maximumEventJsonBytes ≤ maximumBackupBytes then
    .ok ⟨maximumEventCount, maximumEventJsonBytes, maximumBackupBytes, h⟩
  else
    .error "portable relay backup limits must be nonzero and ordered".toList

/-- What an address of a relay has to be for a backup to name it. -/
def IsRelayUrl (relayUrl : Text) : Prop :=
  ("ws://".toList <+: relayUrl ∨ "wss://".toList <+: relayUrl) ∧
    relayUrl.any Text.isWhitespace = false

instance (relayUrl : Text) : Decidable (IsRelayUrl relayUrl) :=
  inferInstanceAs (Decidable (_ ∧ _))

/-- The relay that a backup is of. -/
structure PortableRelayBackupIdentity where
  relayUrl : Text
  isRelayUrl : IsRelayUrl relayUrl

/-- `PortableRelayBackupIdentity::new`. -/
def PortableRelayBackupIdentity.new (relayUrl : Text) : Except Text PortableRelayBackupIdentity :=
  if h : IsRelayUrl relayUrl then
    .ok ⟨relayUrl, h⟩
  else
    .error "portable relay backup identity requires a relay URL".toList

/-! ## Manifests and reports -/

/-- What a manifest says of the file of events. -/
structure PortableRelayBackupEvents where
  path : Text
  count : UInt64
  sha256 : Text
  sizeBytes : UInt64
  firstStoreOffset : Option UInt64
  lastStoreOffset : Option UInt64
deriving DecidableEq

/-- The manifest of a backup. -/
structure PortableRelayBackupManifest where
  schema : Text
  tangleVersion : Text
  pocketSourceRevision : Text
  relayUrl : Text
  createdAtUnixSeconds : UInt64
  events : PortableRelayBackupEvents
deriving DecidableEq

/-- What is reported of a backup that was made or verified. -/
structure PortableRelayBackupReport where
  backupPath : Text
  relayUrl : Text
  createdAtUnixSeconds : UInt64
  eventCount : UInt64
  eventsSha256 : Text
  eventsSizeBytes : UInt64
  firstStoreOffset : Option UInt64
  lastStoreOffset : Option UInt64
deriving DecidableEq

/-- What is reported of a restore. -/
structure PortableRelayRestoreReport where
  backupPath : Text
  targetDataDirectory : Text
  eventCount : UInt64
  eventsSha256 : Text
deriving DecidableEq

/-- What a portable backup runs with. -/
structure PortableHost where
  workingDirectory : Place
  sha256 : List UInt8 → List UInt8
  json : SerdeJson
  manifests : SerdeForm PortableRelayBackupManifest
  /-- The text of Rust's `Utf8Error`. -/
  utf8Error : List UInt8 → Text
  parsePocketEventJson : Text → Except Text SignedPocketEvent
  /-- `Event::verify`. -/
  verify : SignedPocketEvent → Except Text Unit
  stores : PocketStores
  tangleRelayVersion : Text
  processId : Nat
  nonce : Except Text Nat
  nowUnixSeconds : Except Text UInt64

/-! ## Lines -/

/-- The byte that ends a line. -/
def newline : UInt8 := 0x0A

/-- The lines of a file as `read_until` reads them, each up to its newline; the last one may have
none. -/
def fileLines : List UInt8 → List (List UInt8)
  | [] => []
  | byte :: bytes =>
    if byte = newline then
      [byte] :: fileLines bytes
    else
      match fileLines bytes with
      | [] => [[byte]]
      | line :: rest => (byte :: line) :: rest

/-- `strip_suffix(b"\n")`, or the line itself. -/
def withoutNewline (line : List UInt8) : List UInt8 :=
  if line.getLast? = some newline then line.dropLast else line

/-- A line of the file of events, as it is read. -/
structure BackupLineDocument where
  storeOffset : UInt64
  event : JsonValue

/-- One field of a line's object, after those that were read. -/
def readLineField (read : Option UInt64 × Option JsonValue) (field : Text × JsonValue) :
    Option (Option UInt64 × Option JsonValue) :=
  if field.1 = "store_offset".toList then
    if read.1.isSome then none else field.2.asU64.map fun offset => (some offset, read.2)
  else if field.1 = "event".toList then
    if read.2.isSome then none else some (read.1, some field.2.lastWins)
  else
    none

/-- Reads a line's document; an array of the two values stands for the object. -/
def BackupLineDocument.ofValue : JsonValue → Option BackupLineDocument
  | .object fields => do
    let (offset, event) ← fields.foldlM readLineField (none, none)
    return ⟨← offset, ← event⟩
  | .array [offset, event] => do return ⟨← offset.asU64, event.lastWins⟩
  | _ => none

/-- A line that has been parsed: where its event lay, and the event. -/
structure ParsedBackupLine where
  storeOffset : UInt64
  event : SignedPocketEvent

/-- What the verifier has seen of the lines. -/
structure LineInventory where
  count : Nat
  firstStoreOffset : Option UInt64
  lastStoreOffset : Option UInt64
  eventIds : BTreeSet EventId

namespace PortableHost

variable (host : PortableHost)

/-- Bytes that have to be a text. -/
def utf8Text (bytes : List UInt8) : Except Text Text :=
  Except.okOr (Text.ofBytes? bytes) (host.utf8Error bytes)

/-- `pocket_event_json`: the fields of an event by their names. -/
def pocketEventJson (event : SignedPocketEvent) : Except Text JsonValue := do
  let tags ← event.tags.mapM fun tag => tag.mapM host.utf8Text
  let content ← host.utf8Text event.content
  return (JsonMap.ofFields [
    ("id", .string event.id.text),
    ("pubkey", .string event.pubkey.text),
    ("created_at", .unsigned event.createdAt),
    ("kind", .unsigned event.kind.toUInt64),
    ("tags", .array (tags.map .texts)),
    ("content", .string content),
    ("sig", .string event.sig.text)]).toValue

/-- The line of an event, without its newline. -/
def eventLine (stored : ScannedEvent) : Except Text (List UInt8) := do
  let event ← host.pocketEventJson stored.event
  return (host.json.toText (JsonMap.ofFields [
    ("store_offset", .unsigned stored.storeOffset), ("event", event)]).toValue).toBytes

/-- `backup_line`: an event is printed with where it lay, and the line may not be too long. -/
def backupLine (policy : PortableRelayBackupPolicy) (stored : ScannedEvent) :
    Except Text (List UInt8) := do
  let line ← host.eventLine stored
  refuseIf (policy.maximumEventJsonBytes.toNat < line.length)
    "portable relay backup event JSON exceeds policy".toList
  return line ++ [newline]

/-- `parse_backup_line`: the line is checked before its event is. -/
def parseBackupLine (policy : PortableRelayBackupPolicy) (line : List UInt8) :
    Except Text ParsedBackupLine := do
  let line := withoutNewline line
  refuseIf (line = [] ∨ policy.maximumEventJsonBytes.toNat < line.length)
    "portable relay backup event line is empty or oversized".toList
  let value ← Except.okOr (do
      BackupLineDocument.ofValue (← (host.json.fromText (← Text.ofBytes? line)).toOption))
    "portable relay backup line is invalid".toList
  let event ← host.parsePocketEventJson (host.json.toText value.event)
  return ⟨value.storeOffset, event⟩

/-- One line that the verifier reads. -/
def verifyLine (policy : PortableRelayBackupPolicy) (seen : LineInventory) (line : List UInt8) :
    Except Text LineInventory := do
  let parsed ← host.parseBackupLine policy line
  (host.verify parsed.event).mapError fun _ =>
    "portable relay backup contains an invalid event signature".toList
  refuseIf (∃ offset ∈ seen.lastStoreOffset, parsed.storeOffset ≤ offset)
    "portable relay backup store offsets are not strictly increasing".toList
  refuseIf (parsed.event.id ∈ seen.eventIds)
    "portable relay backup contains duplicate event IDs".toList
  refuseIf (2 ^ 64 ≤ seen.count + 1) "portable relay backup event count overflowed".toList
  refuseIf (policy.maximumEventCount.toNat < seen.count + 1)
    "portable relay backup event count exceeds policy".toList
  return {
    count := seen.count + 1
    firstStoreOffset := seen.firstStoreOffset.orElse fun _ => some parsed.storeOffset
    lastStoreOffset := some parsed.storeOffset
    eventIds := seen.eventIds.insert parsed.event.id }

/-! ## Files -/

/-- Opens a file and reads it to its end. -/
def readFile (disk : Disk) (path : OsPath) : Except Text (List UInt8) :=
  match disk.read host.workingDirectory path with
  | .error .isADirectory => .error (failedOn "read" path .isADirectory)
  | .error error => .error (failedOn "open" path error)
  | .ok contents => .ok contents

/-- The digest of a file and its size. -/
def fileSha256 (disk : Disk) (path : OsPath) : Except Text (Text × UInt64) := do
  let contents ← host.readFile disk path
  refuseIf (2 ^ 64 ≤ contents.length) "portable relay backup size overflowed".toList
  return (lowerHex (host.sha256 contents), .ofNat contents.length)

/-- The contents of a file that is no directory and no link. -/
def regularFileMetadata (disk : Disk) (path : OsPath) : Except Text (List UInt8) := do
  match ← (disk.metadata host.workingDirectory path).mapError (failedOn "stat" path) with
  | .directory => .error (messageOn "portable relay backup file is unsafe" path)
  | .file contents => return contents

/-- `read_manifest`. -/
def readManifest (disk : Disk) (input : OsPath) : Except Text PortableRelayBackupManifest := do
  match ← (disk.metadata host.workingDirectory input).mapError (failedOn "stat" input) with
  | .file _ => .error "portable relay backup input must be a real directory".toList
  | .directory =>
    let path := input.join (.ofText portableManifestFile)
    let contents ← host.regularFileMetadata disk path
    refuseIf (64 * 1024 < contents.length)
      "portable relay backup manifest exceeds size policy".toList
    let raw ← (disk.read host.workingDirectory path).mapError (failedOn "read" path)
    Except.okOr (do (host.manifests.fromText (← Text.ofBytes? raw)).toOption)
      "portable relay backup manifest is invalid".toList

/-- `verify_event_lines`: the lines one after another, from an inventory that is empty. -/
def verifyEventLines (disk : Disk) (path : OsPath) (policy : PortableRelayBackupPolicy) :
    Except Text LineInventory := do
  let contents ← host.readFile disk path
  (fileLines contents).foldlM (host.verifyLine policy) ⟨0, none, none, ∅⟩

/-! ## Verifying -/

/-- Whether a text is a digest in lower case. -/
def isLowerHex (value : Text) (expected : Nat) : Bool :=
  value.byteLen = expected && value.all isLowercaseHex

/-- **`verify_portable_relay_backup`**: the manifest is checked against the identity and against
what the lines are found to be. -/
def verifyPortableRelayBackup (disk : Disk) (input : OsPath)
    (expectedIdentity : PortableRelayBackupIdentity) (policy : PortableRelayBackupPolicy) :
    Except Text PortableRelayBackupReport := do
  let manifest ← host.readManifest disk input
  refuseIf (manifest.schema ≠ portableSchema)
    ("unsupported portable relay backup schema: ".toList ++ manifest.schema)
  refuseIf (manifest.relayUrl ≠ expectedIdentity.relayUrl)
    "portable relay backup relay identity does not match".toList
  refuseIf (isLowerHex manifest.pocketSourceRevision 40 = false)
    "portable relay backup Pocket source revision is invalid".toList
  refuseIf (manifest.events.path ≠ portableEventsFile)
    "portable relay backup event path is invalid".toList
  refuseIf (policy.maximumEventCount < manifest.events.count ∨
      policy.maximumBackupBytes < manifest.events.sizeBytes)
    "portable relay backup exceeds configured limits".toList
  let eventsPath := input.join (.ofText portableEventsFile)
  let metadata ← host.regularFileMetadata disk eventsPath
  refuseIf (metadata.length ≠ manifest.events.sizeBytes.toNat)
    "portable relay backup event size does not match manifest".toList
  let (sha256, sizeBytes) ← host.fileSha256 disk eventsPath
  refuseIf (sha256 ≠ manifest.events.sha256)
    "portable relay backup event checksum does not match manifest".toList
  let observed ← host.verifyEventLines disk eventsPath policy
  refuseIf (observed.count ≠ manifest.events.count.toNat ∨
      observed.firstStoreOffset ≠ manifest.events.firstStoreOffset ∨
      observed.lastStoreOffset ≠ manifest.events.lastStoreOffset)
    "portable relay backup event inventory does not match manifest".toList
  return {
    backupPath := input.display
    relayUrl := manifest.relayUrl
    createdAtUnixSeconds := manifest.createdAtUnixSeconds
    eventCount := .ofNat observed.count
    eventsSha256 := sha256
    eventsSizeBytes := sizeBytes
    firstStoreOffset := observed.firstStoreOffset
    lastStoreOffset := observed.lastStoreOffset }

/-! ## Stages -/

/-- The path of a backup ends in a name. -/
def validateFinalBackupPath (path : OsPath) : Except Text Unit := do
  refuseIf (path.bytes = []) "portable relay backup path must not be empty".toList
  refuseIf ([0x2E, 0x2E] ∈ path.segments)
    "portable relay backup path must not contain parent traversal".toList

/-- The path at which a backup or a restore is staged, beside its final place. -/
def stagingPath (path : OsPath) : Except Text OsPath := do
  let name ← Except.okOr path.fileName?
    "portable relay backup path requires a UTF-8 file name".toList
  let nonce ← host.nonce
  return path.withFileName ("." ++ String.ofList name ++ ".stage-" ++
    toString host.processId ++ "-" ++
    toString nonce).toList

/-- What a backup does before it makes its stage: the disk with the directory above the output, and
where the stage is to be. -/
def prepareBackup (disk : Disk) (output : OsPath) : Except Text (Disk × OsPath) := do
  validateFinalBackupPath output
  refuseIf (disk.pathExists host.workingDirectory output = true)
    (messageOn "portable relay backup already exists" output)
  let parent ← Except.okOr output.parentDirectory?
    "portable relay backup requires a parent directory".toList
  let disk ← (disk.createDirAll host.workingDirectory parent).mapError (failedOn "create" parent)
  let stage ← host.stagingPath output
  refuseIf (disk.pathExists host.workingDirectory stage = true)
    (messageOn "portable relay backup stage exists" stage)
  let disk ← (disk.createDir host.workingDirectory stage).mapError (failedOn "create" stage)
  return (disk, stage)

/-- What a restore does before it stores events. -/
def prepareRestore (disk : Disk) (target : OsPath) : Except Text (Disk × OsPath) := do
  validateFinalBackupPath target
  refuseIf (disk.pathExists host.workingDirectory target = true)
    (messageOn "portable relay restore target already exists" target)
  let parent ← Except.okOr target.parentDirectory?
    "portable relay restore target requires a parent directory".toList
  let disk ← (disk.createDirAll host.workingDirectory parent).mapError (failedOn "create" parent)
  let stage ← host.stagingPath target
  let disk ← (disk.createDir host.workingDirectory stage).mapError (failedOn "create" stage)
  return (disk, stage)

/-! ## Stores -/

/-- Lets the Pocket library work on the data directory at a path. -/
def onStore (act : DataDirectory → Except String DataDirectory) (path : OsPath) (disk : Disk) :
    Except Text Disk := do
  let place := path.place host.workingDirectory
  let directory ← (act (disk.below place)).mapError String.toList
  if hparent : disk.at? place.dropLast = some .directory then
    return disk.graft place directory hparent
  else
    .error (failedOn "open" path .notFound)

/-- `PocketStoreHandle::open`. -/
def openStore (path : OsPath) (disk : Disk) : Except Text Disk := do
  let disk ← (disk.createDirAll host.workingDirectory path).mapError
    (failedOn "create Pocket store directory" path)
  host.onStore host.stores.opened path disk

/-- `PocketStoreHandle::scan_events` on the store at a path. -/
def scanEvents (path : OsPath) (disk : Disk) : Except Text (List ScannedEvent) :=
  (host.stores.scanEvents (disk.below (path.place host.workingDirectory))).mapError String.toList

/-! ## Creating -/

/-- `create_backup_in_stage`: the events are written, verified and reported. -/
def createBackupInStage (dataDirectory : OsPath) (identity : PortableRelayBackupIdentity)
    (stage : OsPath) (policy : PortableRelayBackupPolicy) (disk : Disk) :
    Except Text (Disk × PortableRelayBackupReport) := do
  let disk ← host.openStore dataDirectory disk
  let disk ← host.onStore host.stores.synced dataDirectory disk
  let events ← host.scanEvents dataDirectory disk
  refuseIf (policy.maximumEventCount.toNat < events.length)
    "portable relay backup event count exceeds policy".toList
  let eventsPath := stage.join (.ofText portableEventsFile)
  let disk ← (disk.write host.workingDirectory eventsPath []).mapError
    (failedOn "create" eventsPath)
  let lines ← events.mapM (host.backupLine policy)
  let disk ← (disk.write host.workingDirectory eventsPath lines.flatten).mapError
    (failedOn "write" eventsPath)
  let (eventsSha256, eventsSizeBytes) ← host.fileSha256 disk eventsPath
  refuseIf (policy.maximumBackupBytes < eventsSizeBytes)
    "portable relay backup byte size exceeds policy".toList
  let createdAtUnixSeconds ← host.nowUnixSeconds
  let manifest : PortableRelayBackupManifest := {
    schema := portableSchema
    tangleVersion := host.tangleRelayVersion
    pocketSourceRevision := pocketSourceRevision
    relayUrl := identity.relayUrl
    createdAtUnixSeconds := createdAtUnixSeconds
    events := {
      path := portableEventsFile
      count := .ofNat events.length
      sha256 := eventsSha256
      sizeBytes := eventsSizeBytes
      firstStoreOffset := events.head?.map ScannedEvent.storeOffset
      lastStoreOffset := events.getLast?.map ScannedEvent.storeOffset } }
  let manifestPath := stage.join (.ofText portableManifestFile)
  let disk ← (disk.write host.workingDirectory manifestPath
    (host.manifests.toText manifest).toBytes).mapError (failedOn "create" manifestPath)
  let _ ← host.verifyPortableRelayBackup disk stage identity policy
  return (disk, {
    backupPath := stage.display
    relayUrl := identity.relayUrl
    createdAtUnixSeconds := createdAtUnixSeconds
    eventCount := .ofNat events.length
    eventsSha256 := eventsSha256
    eventsSizeBytes := eventsSizeBytes
    firstStoreOffset := events.head?.map ScannedEvent.storeOffset
    lastStoreOffset := events.getLast?.map ScannedEvent.storeOffset })

/-- **`create_portable_relay_backup`**: the backup is made in a stage and then moved to its
place. -/
def createPortableRelayBackup (dataDirectory : OsPath) (identity : PortableRelayBackupIdentity)
    (output : OsPath) (policy : PortableRelayBackupPolicy) (disk : Disk) :
    Except Text (Disk × PortableRelayBackupReport) := do
  let (disk, stage) ← host.prepareBackup disk output
  let (disk, report) ← host.createBackupInStage dataDirectory identity stage policy disk
  let disk ← (disk.renameDirectory host.workingDirectory stage output).mapError
    (failedOn "publish portable relay backup" output)
  return (disk, { report with backupPath := output.display })

/-! ## Restoring -/

/-- One line that the restore reads: its event is stored. -/
def restoreLine (stage : OsPath) (policy : PortableRelayBackupPolicy) (restored : Disk × Nat)
    (line : List UInt8) : Except Text (Disk × Nat) := do
  let parsed ← host.parseBackupLine policy line
  let disk ← host.onStore (host.stores.storeFlushed · parsed.event) stage restored.1
  refuseIf (2 ^ 64 ≤ restored.2 + 1) "portable relay restore event count overflowed".toList
  return (disk, restored.2 + 1)

/-- `restore_into_stage`: a new store is opened in the stage and takes the events line by line. -/
def restoreIntoStage (input stage : OsPath) (policy : PortableRelayBackupPolicy) (disk : Disk) :
    Except Text (Disk × Nat) := do
  BackupHost.checkDataDirectory stage
  let disk ← host.openStore stage disk
  let contents ← host.readFile disk (input.join (.ofText portableEventsFile))
  let (disk, count) ← (fileLines contents).foldlM (host.restoreLine stage policy) (disk, 0)
  let disk ← host.onStore host.stores.synced stage disk
  let restored ← host.scanEvents stage disk
  refuseIf (restored.length ≠ count) "portable relay restore verification count differs".toList
  return (disk, count)

/-- **`restore_portable_relay_backup`**: the backup is verified, restored into a stage and moved to
its place. -/
def restorePortableRelayBackup (input : OsPath) (expectedIdentity : PortableRelayBackupIdentity)
    (targetDataDirectory : OsPath) (policy : PortableRelayBackupPolicy) (disk : Disk) :
    Except Text (Disk × PortableRelayRestoreReport) := do
  let verified ← host.verifyPortableRelayBackup disk input expectedIdentity policy
  let (disk, stage) ← host.prepareRestore disk targetDataDirectory
  let (disk, eventCount) ← host.restoreIntoStage input stage policy disk
  refuseIf (eventCount ≠ verified.eventCount.toNat)
    "portable relay restore event count differs".toList
  let disk ← (disk.renameDirectory host.workingDirectory stage targetDataDirectory).mapError
    (failedOn "publish portable relay restore" targetDataDirectory)
  return (disk, {
    backupPath := input.display
    targetDataDirectory := targetDataDirectory.display
    eventCount := .ofNat eventCount
    eventsSha256 := verified.eventsSha256 })

end PortableHost

end Tangle
