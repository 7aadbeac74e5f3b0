import Tangle.Host.PortableCreation

/-!
# Portable backups that are restored

What a backup leaves at its output is accepted by the verifier there, and its lines are read as the
events that were scanned (`PortableHost.backed_of_create`): the stage was verified before it was
renamed. A restore stores these events one after the other in a new store, so it succeeds exactly
where the Pocket library takes them there, and the store that it leaves scans to the events of the
store that was backed up, each at the offset that it had (`portableBackup_restores`).

Nothing is assumed of when Pocket takes an event. What the relay relies on is where it puts one that
it took (`PocketStores.Lawful`): behind the others in the map, which is what the program's scan
walks.
-/

namespace Tangle

namespace PocketStores

variable {stores : PocketStores} {directory later : DataDirectory} {events more : List ScannedEvent}

/-! ## Maps of events -/

/-- Where the event after a stored one goes. -/
def nextPlace (stores : PocketStores) (stored : ScannedEvent) : Nat :=
  alignEventOffset (stored.storeOffset.toNat + stores.eventLen stored.event)

/-- The events of a data directory: they lie one after another from the start of its map, each is
found at its place, and the map ends behind the start of the last and no further than the next one
goes. -/
structure Holds (stores : PocketStores) (directory : DataDirectory) (events : List ScannedEvent) :
    Prop where
  laid : Laid (fun stored => stored.storeOffset.toNat) stores.nextPlace eventMapStartOffset events
  found : ∀ stored ∈ events, stores.eventByOffset directory stored.storeOffset = .ok stored.event
  ends : ∃ eventBytes, stores.eventBytes directory = .ok eventBytes ∧
    (∀ stored ∈ events, stored.storeOffset < eventBytes) ∧
    eventBytes.toNat ≤ frontier stores.nextPlace eventMapStartOffset events

/-- **The program's scan returns the events that a data directory holds.** -/
theorem Holds.scanEvents (h : stores.Holds directory events) :
    stores.scanEvents directory = .ok events := by
  obtain ⟨eventBytes, hbytes, hbefore, hbehind⟩ := h.ends
  have hreads : (stores.scan directory eventBytes).Reads eventMapStartOffset64 events := by
    refine EventScan.reads_of_laid h.laid (fun stored hstored => ?_)
      (fun stored hstored => UInt64.lt_iff_toNat_lt.mp (hbefore stored hstored)) hbehind
      (fun stored hstored => ?_) fun stored _ => ?_
    · exact (stores.inMemory (h.found stored hstored)).2
    · rw [UInt64.ofNat_toNat]
      exact h.found stored hstored
    · rw [UInt64.ofNat_toNat]
      rfl
  exact Except.bind_eq_ok.mpr ⟨eventBytes, hbytes, EventScan.allEvents_eq_ok.mpr hreads⟩

/-- What a scan returns is laid out from the start of the map, whatever the store answers. -/
theorem laid_of_scanEvents (h : stores.scanEvents directory = .ok events) :
    Laid (fun stored => stored.storeOffset.toNat) stores.nextPlace eventMapStartOffset events := by
  obtain ⟨eventBytes, _, h⟩ := Except.bind_eq_ok.mp h
  exact (EventScan.allEvents_eq_ok.mp h).laid (stores.scan_inMemory directory eventBytes)
    (fun _ _ => rfl) fun _ _ => rfl

/-- Events that are laid out have their places determined. -/
theorem eq_of_laid {start : Nat}
    (h : Laid (fun stored => stored.storeOffset.toNat) stores.nextPlace start events)
    (hmore : Laid (fun stored => stored.storeOffset.toNat) stores.nextPlace start more)
    (hsame : events.map ScannedEvent.event = more.map ScannedEvent.event) : events = more := by
  induction h generalizing more with
  | nil =>
    cases hmore with
    | nil => rfl
    | cons => cases hsame
  | @cons start stored rest hplace _ ih =>
    cases hmore with
    | nil => cases hsame
    | @cons _ other others hother hothers =>
      obtain ⟨hevent, hrest⟩ := List.cons.inj hsame
      have hoffset : stored.storeOffset = other.storeOffset :=
        UInt64.toNat_inj.mp (hplace.trans hother.symm)
      have heq : stored = other := by
        cases stored
        cases other
        cases hevent
        cases hoffset
        rfl
      subst heq
      rw [ih hothers hrest]

/-! ## What is relied on -/

/-- What the relay relies on of Pocket's stores: a store that was opened in an empty directory holds
nothing, an event that was stored lies behind the others, and syncing a store or opening it again
leaves what it holds. When any of this succeeds is Pocket's own affair. -/
structure Lawful (stores : PocketStores) : Prop where
  opens : ∀ {later : DataDirectory}, stores.opened .empty = .ok later → stores.Holds later []
  appends : ∀ {directory later : DataDirectory} {events : List ScannedEvent}
    {event : SignedPocketEvent}, stores.Holds directory events →
    stores.storeEvent directory event = .ok later →
    ∃ offset, stores.Holds later (events ++ [⟨event, offset⟩])
  syncs : ∀ {directory later : DataDirectory} {events : List ScannedEvent},
    stores.Holds directory events → stores.synced directory = .ok later → stores.Holds later events
  reopens : ∀ {directory later : DataDirectory} {events : List ScannedEvent},
    stores.Holds directory events → stores.opened directory = .ok later → stores.Holds later events

/-- The Pocket library takes events one after another in a new store, and then syncs the store. -/
def Takes (stores : PocketStores) (events : List SignedPocketEvent) : Prop :=
  (do
    let fresh ← stores.opened .empty
    let held ← events.foldlM stores.storeFlushed fresh
    stores.synced held).Succeeds

/-- A store holds what it held and, behind it, the events that it has taken since. -/
theorem Lawful.holds_of_foldlM (h : stores.Lawful) {taken : List SignedPocketEvent}
    (hheld : stores.Holds directory events)
    (hstored : taken.foldlM stores.storeFlushed directory = .ok later) :
    ∃ found, stores.Holds later (events ++ found) ∧ found.map ScannedEvent.event = taken := by
  induction taken generalizing directory events with
  | nil =>
    cases hstored
    exact ⟨[], by rw [List.append_nil]; exact hheld, rfl⟩
  | cons event taken ih =>
    obtain ⟨next, hnext, hrest⟩ := Except.foldlM_cons_ok.mp hstored
    obtain ⟨written, hwritten, hsynced⟩ := Except.bind_eq_ok.mp hnext
    obtain ⟨offset, hmore⟩ := h.appends hheld hwritten
    obtain ⟨found, hfound, hsame⟩ := ih (h.syncs hmore hsynced) hrest
    rw [List.append_assoc] at hfound
    exact ⟨⟨event, offset⟩ :: found, hfound, congrArg (event :: ·) hsame⟩

end PocketStores

namespace PortableHost

variable {host : PortableHost} {identity : PortableRelayBackupIdentity}
  {policy : PortableRelayBackupPolicy} {disk later made : Disk} {path stage target : OsPath}
  {place : Place} {events : List ScannedEvent}

/-! ## What a backup leaves -/

/-- A backup that is accepted, whose lines are read as these events. -/
def Backed (host : PortableHost) (identity : PortableRelayBackupIdentity)
    (policy : PortableRelayBackupPolicy) (events : List SignedPocketEvent) (disk : Disk)
    (input : OsPath) : Prop :=
  ∃ place raw contents manifest parsed,
    disk.find host.workingDirectory input = .ok place ∧ disk.at? place = some .directory ∧
    disk.file? (place ++ [portableManifestName]) = some raw ∧
    disk.file? (place ++ [portableEventsName]) = some contents ∧
    host.Verified identity policy raw contents manifest parsed ∧
    parsed.map ParsedBackupLine.event = events

/-- What a backup leaves at its output is accepted there, and is read as the events it scanned. -/
theorem backed_of_create (hjson : host.ReadsEvents) {dataDirectory output : OsPath} {base : Disk}
    {report : PortableRelayBackupReport}
    (hprepared : host.prepareBackup disk output = .ok (made, stage))
    (hscan : host.Scans dataDirectory made base events)
    (h : host.createPortableRelayBackup dataDirectory identity output policy disk =
      .ok (later, report)) :
    host.Backed identity policy (events.map ScannedEvent.event) later output := by
  unfold createPortableRelayBackup at h
  rw [hprepared, Except.ok_bind] at h
  obtain ⟨⟨written, stageReport⟩, hcreated, h⟩ := Except.bind_eq_ok.mp h
  obtain ⟨moved, hmoved, h⟩ := Except.bind_eq_ok.mp h
  cases h
  obtain ⟨fronts, now, verified, hfronts, _, _, hshort, _, hfile, hraw, hverified⟩ :=
    written_of_create hscan hcreated
  obtain ⟨place, raw, contents, manifest, parsed, hfind, _, hraw', hfile', hall, _⟩ :=
    verify_eq_ok.mp hverified
  cases Disk.walk_place (Disk.find_eq_ok.mp hfind).2
  cases hfile.symm.trans hfile'
  have hup : .up ∉ output.steps := by
    unfold prepareBackup at hprepared
    obtain ⟨_, hvalid, _⟩ := Except.bind_eq_ok.mp hprepared
    exact up_not_mem_steps hvalid
  obtain ⟨goal, _, hgoal, _, hsource, _, hparent, rfl⟩ :=
    Disk.renameDirectory_eq_ok.mp (Except.mapError_eq_ok.mp hmoved)
  have hat : (written.move (stage.place host.workingDirectory) goal hparent).at? goal =
      some .directory := by
    have hbelow := @FileTree.at?_move_below _ _ _ written [] _ goal hparent hsource
    rw [List.append_nil, List.append_nil] at hbelow
    rw [hbelow, hsource]
  have hfiles : ∀ name, (written.move (stage.place host.workingDirectory) goal hparent).file?
      (goal ++ [name]) = written.file? (stage.place host.workingDirectory ++ [name]) :=
    fun name => FileTree.file?_congr (FileTree.at?_move_below hsource)
  refine ⟨goal, raw, _, manifest, parsed, Disk.find_of_trimmed hup hgoal hat, hat, ?_, ?_, hall, ?_⟩
  · rw [hfiles, hraw']
  · rw [hfiles, hfile]
  · rw [((readsLines_fileOf hjson hfronts hshort).mp hall.lines).1, List.map_map]
    rfl

/-! ## What a restore does -/

/-- The target can be restored to: its stage can be made, and an empty stage can be moved there. -/
def TakesTarget (host : PortableHost) (disk : Disk) (target : OsPath) : Prop :=
  ∃ made stage moved, host.prepareRestore disk target = .ok (made, stage) ∧
    made.renameDirectory host.workingDirectory stage target = .ok moved ∧
    moved.at? (stage.place host.workingDirectory) = none

/-- A target that is free can be restored to when its stage is free beside it. -/
theorem takesTarget_of_free {parent : OsPath} {name stageName : EntryName}
    (hvalid : validateFinalBackupPath target = .ok ())
    (htarget : target = parent.join (.ofName name))
    (htrimmed : target.trimmed = target) (hparent : target.parentDirectory? = some parent)
    (hstage : host.stagingPath target = .ok (parent.join (.ofName stageName)))
    (hne : stageName ≠ name) (hfind : disk.find host.workingDirectory parent = .ok place)
    (hat : disk.at? place = some .directory) (hfree : disk.at? (place ++ [name]) = none)
    (hfreeStage : disk.at? (place ++ [stageName]) = none) : host.TakesTarget disk target := by
  obtain ⟨above, habove, hsame⟩ := createDirAll_of_find hfind hat
  have hjoin : ∀ {later : Disk} (name : EntryName), (∀ other, later.at? other = disk.at? other) →
      later.find host.workingDirectory (parent.join (.ofName name)) = .ok (place ++ [name]) := by
    intro later name hlater
    obtain ⟨_, hwalk⟩ := Disk.find_eq_ok.mp hfind
    refine Disk.find_join_name (Disk.walk_mono (fun other hother => ?_) hwalk) ?_
    · rw [hlater, hother]
    · rw [hlater, hat]
  have habsent : disk.pathExists host.workingDirectory target = false := by
    unfold Disk.pathExists
    cases hmetadata : disk.metadata host.workingDirectory target with
    | error error => rfl
    | ok entry =>
      obtain ⟨found, hfound, hentry⟩ := Disk.metadata_eq_ok.mp hmetadata
      rw [htarget, hjoin name fun _ => rfl] at hfound
      cases hfound
      rw [hfree] at hentry
      cases hentry
  have hfreeAbove : above.at? (place ++ [stageName]) = none := by
    rw [hsame, hfreeStage]
  have hparentAbove : above.at? (place ++ [stageName]).dropLast = some .directory := by
    rw [List.dropLast_concat, hsame, hat]
  have hcreated : ∃ made,
      above.createDir host.workingDirectory (parent.join (.ofName stageName)) = .ok made := by
    unfold Disk.createDir
    rw [hjoin stageName hsame, Except.ok_bind, dif_pos hfreeAbove, dif_pos hparentAbove]
    exact ⟨_, rfl⟩
  obtain ⟨made, hcreated⟩ := hcreated
  have hmade := made_of_createDir habove hcreated
  obtain ⟨hstageFind, _, _, hmadeAt⟩ := Disk.createDir_eq_ok hcreated
  rw [hjoin stageName hsame] at hstageFind
  have hstagePlace := Except.ok.inj hstageFind
  have hapart : place ++ [stageName] ≠ place ++ [name] := fun heq =>
    hne (List.singleton_inj.mp (List.append_cancel_left heq))
  have hgoal : made.find host.workingDirectory target.trimmed = .ok (place ++ [name]) := by
    rw [htrimmed, htarget]
    obtain ⟨_, hwalk⟩ := Disk.find_eq_ok.mp hfind
    refine Disk.find_join_name
      (Disk.walk_mono (fun other hother => hmade.keeps _ _ hother) hwalk) ?_
    exact hmade.keeps _ _ hat
  have hroot : place ++ [stageName] ≠ [] := by
    simp
  have hgoalFree : made.at? (place ++ [name]) = none := by
    rw [hmadeAt, ← hstagePlace, if_neg hapart.symm, hsame, hfree]
  have hinside : ¬ place ++ [stageName] <+: place := by
    intro hprefix
    have hlength := hprefix.length_le
    rw [List.length_append, List.length_singleton] at hlength
    omega
  have hgoalParent : (made.without (place ++ [stageName])).at? (place ++ [name]).dropLast =
      some .directory := by
    rw [FileTree.at?_without hroot, List.dropLast_concat, if_neg hinside, hmade.keeps _ _ hat]
  refine ⟨made, parent.join (.ofName stageName),
    made.move (place ++ [stageName]) (place ++ [name]) hgoalParent, ?_, ?_, ?_⟩
  · unfold prepareRestore
    refine Except.bind_eq_ok.mpr ⟨(), hvalid, ?_⟩
    refine Except.bind_eq_ok.mpr ⟨(), refuseIf_eq_ok.mpr (by rw [habsent]; simp), ?_⟩
    refine Except.bind_eq_ok.mpr ⟨parent, by rw [hparent]; rfl, ?_⟩
    refine Except.bind_eq_ok.mpr ⟨above, Except.mapError_eq_ok.mpr habove, ?_⟩
    refine Except.bind_eq_ok.mpr ⟨_, hstage, ?_⟩
    exact Except.bind_eq_ok.mpr ⟨made, Except.mapError_eq_ok.mpr hcreated, rfl⟩
  · refine Disk.renameDirectory_eq_ok.mpr ⟨place ++ [name], hmade.found, hgoal, ?_, hmade.directory,
      .inl hgoalFree, ?_⟩
    · rw [← hstagePlace]
      exact hroot
    · rw [← hstagePlace]
      exact ⟨hgoalParent, rfl⟩
  · rw [← hstagePlace, FileTree.move, FileTree.at?_graft_of_not_prefix, FileTree.at?_without hroot,
      if_pos (List.prefix_refl _)]
    intro hprefix
    have hlength := List.IsPrefix.eq_of_length hprefix (by simp)
    exact hapart hlength.symm

/-- A store that is found with events scans to them. -/
theorem scanEvents_of_found (hfind : disk.find host.workingDirectory path = .ok place)
    (hholds : host.stores.Holds (disk.below place) events) :
    host.scanEvents path disk = .ok events := by
  cases Disk.walk_place (Disk.find_eq_ok.mp hfind).2
  exact Except.mapError_eq_ok.mpr hholds.scanEvents

/-- A store that is found with events and is opened again scans to them. -/
theorem scanEvents_of_openStore (hstores : host.stores.Lawful)
    (hfind : disk.find host.workingDirectory path = .ok place)
    (hat : disk.at? place = some .directory) (hholds : host.stores.Holds (disk.below place) events)
    (hopened : host.openStore path disk = .ok later) : host.scanEvents path later = .ok events := by
  cases Disk.walk_place (Disk.find_eq_ok.mp hfind).2
  obtain ⟨same, hsame, hsameAt⟩ := createDirAll_of_find hfind hat
  have hbelow : same.below (path.place host.workingDirectory) =
      disk.below (path.place host.workingDirectory) :=
    FileTree.below_eq fun rest _ => hsameAt _
  unfold openStore at hopened
  obtain ⟨same', hsame', hopened⟩ := Except.bind_eq_ok.mp hopened
  cases hsame.symm.trans (Except.mapError_eq_ok.mp hsame')
  unfold onStore at hopened
  obtain ⟨next, hnext, hopened⟩ := Except.bind_eq_ok.mp hopened
  rw [Except.mapError_eq_ok, hbelow] at hnext
  split at hopened
  · cases hopened
    unfold scanEvents
    rw [FileTree.below_graft]
    exact Except.mapError_eq_ok.mpr (hstores.reopens hholds hnext).scanEvents
  · cases hopened

/-! ## What is restored -/

section
variable {taken : List SignedPocketEvent} {input : OsPath}

/-- The file of lines of a backup beside the stage is read as it was before the stage was made. -/
theorem Building.readFile {directory : DataDirectory} {contents : List UInt8}
    (hmade : host.Made disk made stage) (h : host.Building made stage later directory)
    (hfind : disk.find host.workingDirectory input = .ok place)
    (hat : disk.at? place = some .directory)
    (hfile : disk.file? (place ++ [portableEventsName]) = some contents) :
    host.readFile later (input.join (.ofText portableEventsFile)) = .ok contents := by
  obtain ⟨hne, hwalk⟩ := Disk.find_eq_ok.mp hfind
  have hfind' : later.find host.workingDirectory input = .ok place :=
    Disk.find_eq_ok.mpr ⟨hne, Disk.walk_mono (fun place => h.keeps hmade) hwalk⟩
  rw [ofText_portableEventsFile, readFile_eq_ok, read_join_name hfind' (h.keeps hmade hat),
    FileTree.file?_eq_some]
  exact h.keeps hmade (FileTree.file?_eq_some.mp hfile)

/-- **What a restore leaves.** Where a restore of an accepted backup succeeds, Pocket has taken the
events of its lines, and the store at the target holds them in their order. -/
theorem holds_of_restore (hstores : host.stores.Lawful) {report : PortableRelayRestoreReport}
    (hbacked : host.Backed identity policy taken disk input)
    (htarget : host.TakesTarget disk target)
    (h : host.restorePortableRelayBackup input identity target policy disk = .ok (later, report)) :
    host.stores.Takes taken ∧ ∃ place found, later.find host.workingDirectory target = .ok place ∧
      later.at? place = some .directory ∧ host.stores.Holds (later.below place) found ∧
      found.map ScannedEvent.event = taken := by
  obtain ⟨place, raw, contents, manifest, parsed, hfind, hat, hraw, hfile, hall, rfl⟩ := hbacked
  obtain ⟨made, stage, moved, hprepared, hmoved, haway⟩ := htarget
  obtain ⟨hup, hmade⟩ := made_of_prepareRestore hprepared
  unfold restorePortableRelayBackup at h
  obtain ⟨verified, _, h⟩ := Except.bind_eq_ok.mp h
  rw [hprepared, Except.ok_bind] at h
  obtain ⟨⟨done, total⟩, hrestored, h⟩ := Except.bind_eq_ok.mp h
  obtain ⟨_, _, h⟩ := Except.bind_eq_ok.mp h
  obtain ⟨final, hfinal, h⟩ := Except.bind_eq_ok.mp h
  cases h
  -- what was done in the stage
  unfold restoreIntoStage at hrestored
  obtain ⟨_, _, hrestored⟩ := Except.bind_eq_ok.mp hrestored
  obtain ⟨opened, hopened, hrestored⟩ := Except.bind_eq_ok.mp hrestored
  obtain ⟨fresh, hfresh, hbuilding⟩ := hmade.building.of_openStore hmade.toStaged hopened
  rw [hbuilding.readFile hmade hfind hat hfile, Except.ok_bind] at hrestored
  obtain ⟨⟨filled, count⟩, hfilled, hrestored⟩ := Except.bind_eq_ok.mp hrestored
  obtain ⟨held, hheld, hbuilding'⟩ := hbuilding.of_restoreLines hall.lines hfilled
  obtain ⟨synced, hsynced, hrestored⟩ := Except.bind_eq_ok.mp hrestored
  obtain ⟨restored, hkept, hbuilding''⟩ := hbuilding'.of_onStore hsynced
  obtain ⟨_, _, hrestored⟩ := Except.bind_eq_ok.mp hrestored
  obtain ⟨_, _, hrestored⟩ := Except.bind_eq_ok.mp hrestored
  cases hrestored
  -- the store in the stage holds the events, and moves to the target
  obtain ⟨found, hfound, hsame⟩ := hstores.holds_of_foldlM (hstores.opens hfresh) hheld
  obtain ⟨final', goal, hrenamed, hgoal, hgoalAt, hbelow, _⟩ :=
    hbuilding''.moved hmade.toStaged hup hmoved haway
  cases hrenamed.symm.trans (Except.mapError_eq_ok.mp hfinal)
  have htakes : host.stores.Takes (parsed.map ParsedBackupLine.event) :=
    ⟨restored, Except.bind_eq_ok.mpr ⟨fresh, hfresh, Except.bind_eq_ok.mpr ⟨held, hheld, hkept⟩⟩⟩
  refine ⟨htakes, goal, found, hgoal, hgoalAt, ?_, hsame⟩
  rw [hbelow]
  exact hstores.syncs hfound hkept

/-- **When a restore succeeds.** A restore of an accepted backup succeeds where Pocket takes the
events of its lines: the count that it checks is that of the lines, since the store holds what it
took. -/
theorem restore_of_takes (hstores : host.stores.Lawful)
    (hbacked : host.Backed identity policy taken disk input)
    (htarget : host.TakesTarget disk target) (htakes : host.stores.Takes taken) :
    (host.restorePortableRelayBackup input identity target policy disk).Succeeds := by
  obtain ⟨place, raw, contents, manifest, parsed, hfind, hat, hraw, hfile, hall, rfl⟩ := hbacked
  obtain ⟨made, stage, moved, hprepared, hmoved, haway⟩ := htarget
  obtain ⟨synced, htakes⟩ := htakes
  obtain ⟨fresh, hfresh, htakes⟩ := Except.bind_eq_ok.mp htakes
  obtain ⟨held, hheld, hsynced⟩ := Except.bind_eq_ok.mp htakes
  obtain ⟨hup, hmade⟩ := made_of_prepareRestore hprepared
  obtain ⟨found, hfound, hsame⟩ := hstores.holds_of_foldlM (hstores.opens hfresh) hheld
  have hlength : parsed.length < 2 ^ 64 :=
    lt_of_le_of_lt hall.wellFormed.count policy.maximumEventCount.toNat_lt
  -- the stage is built
  obtain ⟨opened, hopened, hbuilding⟩ := hmade.building.openStore hmade.toStaged hfresh
  obtain ⟨filled, hfilled, hbuilding'⟩ :=
    hbuilding.restoreLines hmade.toStaged hall.lines hheld (show 0 + parsed.length < 2 ^ 64 by
      omega)
  obtain ⟨done, hdone, hbuilding''⟩ := hbuilding'.onStore hmade.toStaged hsynced
  obtain ⟨final, goal, hfinal, _⟩ := hbuilding''.moved hmade.toStaged hup hmoved haway
  have hverified := verify_eq_ok.mpr
    ⟨place, raw, contents, manifest, parsed, hfind, hat, hraw, hfile, hall, rfl⟩
  have hcount : found.length = 0 + parsed.length := by
    have hlengths := congrArg List.length hsame
    rw [List.length_map, List.length_map] at hlengths
    omega
  have hscanned : host.scanEvents stage done = .ok found := by
    unfold scanEvents
    rw [hbuilding''.holds]
    exact Except.mapError_eq_ok.mpr (hstores.syncs hfound hsynced).scanEvents
  have hrestored : host.restoreIntoStage input stage policy made =
      .ok (done, 0 + parsed.length) := by
    unfold restoreIntoStage
    have hne := (Disk.find_eq_ok.mp hmade.found).1
    refine Except.bind_eq_ok.mpr ⟨(), if_neg hne, ?_⟩
    refine Except.bind_eq_ok.mpr ⟨opened, hopened, Except.bind_eq_ok.mpr
      ⟨contents, hbuilding.readFile hmade hfind hat hfile, ?_⟩⟩
    refine Except.bind_eq_ok.mpr ⟨_, hfilled, Except.bind_eq_ok.mpr ⟨done, hdone, ?_⟩⟩
    refine Except.bind_eq_ok.mpr ⟨found, hscanned, ?_⟩
    exact Except.bind_eq_ok.mpr ⟨(), refuseIf_eq_ok.mpr (not_not.mpr hcount), rfl⟩
  refine ⟨(final, ⟨input.display, target.display, .ofNat (0 + parsed.length),
    manifest.events.sha256⟩), ?_⟩
  unfold restorePortableRelayBackup
  refine Except.bind_eq_ok.mpr ⟨_, hverified, Except.bind_eq_ok.mpr ⟨_, hprepared, ?_⟩⟩
  refine Except.bind_eq_ok.mpr ⟨_, hrestored, ?_⟩
  refine Except.bind_eq_ok.mpr ⟨(), refuseIf_eq_ok.mpr ?_, ?_⟩
  · rw [not_not, Nat.zero_add]
    exact hall.count
  · exact Except.bind_eq_ok.mpr ⟨final, Except.mapError_eq_ok.mpr hfinal, rfl⟩

end

end PortableHost

/-- **A portable backup is restored as the store that it was made of.** A restore of a backup that
was made, to a target whose stage can be made and moved, succeeds exactly when the Pocket library
takes the events that were backed up, one after another, in a new store. Whenever it succeeds, the
store at the target scans to the very list that the store which was backed up scanned to, the same
events in the same order at the same offsets, and so it does when it is opened again.

The lines are read as they were written and stored in their order; the program's scan finds them
again because each lies where its predecessor ends, which determines the offsets. -/
theorem portableBackup_restores {host : PortableHost} (hjson : host.ReadsEvents)
    (hstores : host.stores.Lawful) {dataDirectory output stage target : OsPath}
    {identity : PortableRelayBackupIdentity} {policy : PortableRelayBackupPolicy}
    {disk made base written : Disk} {report : PortableRelayBackupReport}
    {events : List ScannedEvent} (hprepared : host.prepareBackup disk output = .ok (made, stage))
    (hscan : host.Scans dataDirectory made base events)
    (hcreate : host.createPortableRelayBackup dataDirectory identity output policy disk =
      .ok (written, report))
    (htarget : host.TakesTarget written target) :
    ((host.restorePortableRelayBackup output identity target policy written).Succeeds ↔
      host.stores.Takes (events.map ScannedEvent.event)) ∧
    ∀ later restored,
      host.restorePortableRelayBackup output identity target policy written =
        .ok (later, restored) →
      host.scanEvents target later = .ok events ∧
      ∀ reopened, host.openStore target later = .ok reopened →
        host.scanEvents target reopened = .ok events := by
  have hbacked := PortableHost.backed_of_create hjson hprepared hscan hcreate
  refine ⟨⟨?_, PortableHost.restore_of_takes hstores hbacked htarget⟩, ?_⟩
  · rintro ⟨⟨later, restored⟩, h⟩
    exact (PortableHost.holds_of_restore hstores hbacked htarget h).1
  · intro later restored h
    obtain ⟨_, place, found, hfind, hat, hholds, hsame⟩ :=
      PortableHost.holds_of_restore hstores hbacked htarget h
    obtain ⟨_, _, _, hscanned⟩ := hscan
    have hlaid := PocketStores.laid_of_scanEvents (Except.mapError_eq_ok.mp hscanned)
    cases PocketStores.eq_of_laid hholds.laid hlaid hsame
    exact ⟨PortableHost.scanEvents_of_found hfind hholds,
      fun reopened => PortableHost.scanEvents_of_openStore hstores hfind hat hholds⟩

namespace Sample

variable {directory : DataDirectory} {stored : List ScannedEvent} {eventMap : List UInt8}
  {events : List SignedPocketEvent}

/-- What the map of a data directory stands for is what the directory holds. -/
theorem holds_of_held (h : heldEvents directory = .ok stored) :
    fewEventStores.Holds directory stored := by
  obtain ⟨hlaid, hend, hmemory⟩ := laid_of_held h
  have hnext : ∀ item : ScannedEvent, item.storeOffset.toNat <
      alignEventOffset (item.storeOffset.toNat + signedEventLen item.event) := by
    intro item
    have hlen : 0 < signedEventLen item.event := Nat.lt_add_right _ (by decide)
    exact lt_of_lt_of_le (Nat.lt_add_of_pos_right hlen) (alignEventOffset_bounds _).1
  refine ⟨hlaid, fun item hitem => ?_, ⟨_, Except.bind_eq_ok.mpr ⟨stored, h, rfl⟩, ?_, ?_⟩⟩
  · have hfound := @EventScan.eventAt_of_pairwise _ _ stored (fun item => item.storeOffset.toNat)
      ScannedEvent.event (hlaid.pairwise hnext)
      (fun other hother => le_trans (Nat.le_add_right _ _) (hmemory other hother)) item hitem
    rw [UInt64.ofNat_toNat] at hfound
    exact Except.bind_eq_ok.mpr ⟨stored, h, hfound⟩
  · intro item hitem
    rw [UInt64.lt_iff_toNat_lt, toNat_ofNat_of_memory hend]
    exact hlaid.lt_frontier hnext item hitem
  · exact (toNat_ofNat_of_memory hend).le

theorem heldEvents_holding (h : eventsOfMap eventMap = .ok events) :
    heldEvents (holding eventMap) = .ok (placedFrom eventMapStartOffset events) :=
  heldEvents_eq_ok.mpr ⟨eventMap, events, Except.okOr_eq_ok.mpr (file?_holding eventMap), h, rfl⟩

/-- A map that can be read with a number more can be read without it. -/
theorem eventsOfMap_concat {number : UInt8} {event : SignedPocketEvent}
    (hknown : knownEvents[number.toNat]? = some event)
    (h : eventsOfMap (eventMap ++ [number]) = .ok events) :
    ∃ before, eventsOfMap eventMap = .ok before ∧ events = before ++ [event] := by
  unfold eventsOfMap at h ⊢
  obtain ⟨read, hread, h⟩ := Except.bind_eq_ok.mp h
  rw [List.mapM_append] at hread
  obtain ⟨before, hbefore, hread⟩ := Except.bind_eq_ok.mp hread
  obtain ⟨last, hlast, hread⟩ := Except.bind_eq_ok.mp hread
  cases hread
  have hone : last = [event] := by
    cases Except.mapM_eq_ok.mp hlast with
    | cons hfirst hnil =>
      cases hnil
      rw [hknown, Except.okOr_some] at hfirst
      rw [Except.ok.inj hfirst]
  subst hone
  split at h
  · next hfits =>
    cases h
    rw [endFrom_append] at hfits
    have hbound := le_trans (le_endFrom _ [event]) hfits
    exact ⟨before, Except.bind_eq_ok.mpr ⟨before, hbefore, if_pos hbound⟩, rfl⟩
  · cases h

/-- The sample stores keep to what the relay relies on. -/
theorem fewEventStores_lawful : fewEventStores.Lawful where
  opens := by
    intro later h
    have hnone : (FileTree.Directory.empty : DataDirectory).tree.file? [eventMapName] = none :=
      FileTree.file?_of_none (FileTree.Directory.at?_empty (List.cons_ne_nil _ _))
    have hopened : fewEventStores.opened .empty = .ok (holding []) :=
      congrArg Except.ok (if_pos hnone)
    cases hopened.symm.trans h
    exact holds_of_held (@heldEvents_holding [] [] rfl)
  appends := by
    intro directory later events event hholds h
    obtain ⟨eventMap, hmap, h⟩ := Except.bind_eq_ok.mp h
    dsimp only at h
    split at h
    · next hallowed =>
      obtain ⟨hknown, _, hread⟩ := hallowed
      cases h
      obtain ⟨more, hmore⟩ := hread
      obtain ⟨before, hbefore, rfl⟩ := eventsOfMap_concat hknown hmore
      have hheld := holds_of_held (heldEvents_eq_ok.mpr ⟨eventMap, before, hmap, hbefore, rfl⟩)
      cases hholds.scanEvents.symm.trans hheld.scanEvents
      have hlater := holds_of_held (heldEvents_holding hmore)
      rw [placedFrom_append] at hlater
      exact ⟨_, hlater⟩
    · cases h
  syncs := by
    intro directory later events hholds h
    cases h
    exact hholds
  reopens := by
    intro directory later events hholds h
    obtain ⟨_, hbytes, _⟩ := hholds.ends
    obtain ⟨stored, hstored, _⟩ := Except.bind_eq_ok.mp hbytes
    obtain ⟨eventMap, _, hmap, _⟩ := heldEvents_eq_ok.mp hstored
    have hsome : directory.tree.file? [eventMapName] ≠ none := by
      rw [Except.okOr_eq_ok.mp hmap]
      exact Option.some_ne_none eventMap
    have hopened : fewEventStores.opened directory = .ok directory :=
      congrArg Except.ok (if_neg hsome)
    cases hopened.symm.trans h
    exact hholds

end Sample

section
open Sample

/-- A new store takes the events of the sample, the later one first. -/
theorem takes_portableEvents :
    portableHost.stores.Takes (portableEvents.map ScannedEvent.event) := by
  unfold PocketStores.Takes
  decide +kernel

theorem portableBackup_restores_copy : ∃ disk later restored,
    portableHost.restorePortableRelayBackup firstBackup portableIdentity copyPath
      portablePolicy disk =
        .ok (later, restored) ∧
      portableHost.scanEvents copyPath later = .ok portableEvents := by
  obtain ⟨disk, made, base, moved, hprepared, hscan, hstaged, hmoved, haway, hcopy, hcopyStage⟩ :=
    started_beside
  obtain ⟨fronts, now, hfronts, hnow, hfits⟩ := portableEvents_fit
  obtain ⟨written, report, place, hcreate, hfind, hbeside⟩ :=
    PortableHost.createPortable_of_fits portableHost_readsEvents
      PortableRelayBackupManifest.form_readsBack hprepared hscan hstaged hmoved haway hfronts hnow
      hfits
  cases Disk.walk_place (Disk.find_eq_ok.mp hfind).2
  have hfree : ∀ name : EntryName, ¬ firstStage.place [] <+: [name] →
      ¬ firstBackup.place [] <+: [name] → base.at? [name] = none → written.at? [name] = none :=
    fun name hstage hplace hnone => (hbeside _ hstage hplace).trans hnone
  have htarget : portableHost.TakesTarget written copyPath :=
    @PortableHost.takesTarget_of_free portableHost written copyPath [] (.ofText "/".toList) copyName
      copyStageName (by decide +kernel) (by decide +kernel) (by decide +kernel) (by decide +kernel)
      (by decide +kernel) (by decide +kernel) rfl FileTree.at?_nil
      (hfree copyName (by decide +kernel) (by decide +kernel) hcopy)
      (hfree copyStageName (by decide +kernel) (by decide +kernel) hcopyStage)
  obtain ⟨hwhen, hsame⟩ := portableBackup_restores portableHost_readsEvents fewEventStores_lawful
    hprepared hscan hcreate htarget
  obtain ⟨⟨later, restored⟩, hrestored⟩ := hwhen.mpr takes_portableEvents
  exact ⟨written, later, restored, hrestored, (hsame later restored hrestored).1⟩

end

end Tangle
