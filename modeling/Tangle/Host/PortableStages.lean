import Tangle.Host.Copying
import Tangle.Host.PortableChecks

/-!
# Stages of portable backups

A stage that was made stands empty (`PortableHost.Staged`) on a disk that holds all it held before
(`PortableHost.Made`). While something is built in it nothing else on the disk changes
(`PortableHost.Building`), so what can be found stays found, and a stage that could be moved while
it was empty can be moved once it was filled (`PortableHost.Building.moved`).
-/

namespace Tangle

namespace PortableHost

variable {host : PortableHost} {identity : PortableRelayBackupIdentity}
  {policy : PortableRelayBackupPolicy} {disk later made : Disk} {path stage target : OsPath}
  {place : Place} {events : List ScannedEvent}

/-- The path of a backup that is accepted never goes up. -/
theorem up_not_mem_steps (h : validateFinalBackupPath path = .ok ()) : .up ∉ path.steps := by
  unfold validateFinalBackupPath at h
  obtain ⟨_, _, h⟩ := Except.bind_eq_ok.mp h
  rw [refuseIf_eq_ok] at h
  intro hin
  obtain ⟨segment, hsegment, hup⟩ := List.mem_map.mp hin
  refine h ?_
  unfold PathStep.ofBytes at hup
  split at hup
  · cases hup
  · split at hup
    · rename_i hdots
      exact hdots ▸ hsegment
    · split at hup <;> cases hup

/-- An empty stage. -/
structure Staged (host : PortableHost) (made : Disk) (stage : OsPath) : Prop where
  found : made.find host.workingDirectory stage = .ok (stage.place host.workingDirectory)
  directory : made.at? (stage.place host.workingDirectory) = some .directory
  empty : ∀ rest, rest ≠ [] → made.at? (stage.place host.workingDirectory ++ rest) = none
  parent : made.at? (stage.place host.workingDirectory).dropLast = some .directory

/-- A stage that was made: what stood on the disk stands there. -/
structure Made (host : PortableHost) (disk made : Disk) (stage : OsPath) : Prop
    extends host.Staged made stage where
  keeps : ∀ place entry, disk.at? place = some entry → made.at? place = some entry
  fresh : disk.at? (stage.place host.workingDirectory) = none

/-- A directory made with those above it is new: nothing was in its place, and what else was there
is there still. -/
theorem made_of_createDir {above : Disk} {parent : OsPath}
    (habove : disk.createDirAll host.workingDirectory parent = .ok above)
    (h : above.createDir host.workingDirectory stage = .ok made) : host.Made disk made stage := by
  obtain ⟨hfind, hfree, hparent, hat⟩ := Disk.createDir_eq_ok h
  obtain ⟨hgrows, _⟩ := Disk.createDirAll_grows habove
  have hkept : ∀ place entry, above.at? place = some entry → made.at? place = some entry := by
    intro place entry hentry
    rw [hat, if_neg]
    · exact hentry
    · rintro rfl
      rw [hfree] at hentry
      cases hentry
  constructor
  · constructor
    · obtain ⟨hne, hwalk⟩ := Disk.find_eq_ok.mp hfind
      exact Disk.find_eq_ok.mpr ⟨hne, Disk.walk_mono (fun place => hkept place _) hwalk⟩
    · rw [hat, if_pos rfl]
    · intro rest hrest
      rw [hat, if_neg (mt List.append_right_eq_self.mp hrest)]
      exact FileTree.at?_below_of_none hfree
    · rw [hat]
      split
      · rfl
      · exact hparent
  · exact fun place entry hentry => hkept place entry (hgrows.keeps place entry hentry)
  · by_contra hsome
    obtain ⟨entry, hentry⟩ := Option.ne_none_iff_exists'.mp hsome
    rw [hgrows.keeps _ _ hentry] at hfree
    cases hfree

/-- What a backup is prepared in is a new directory, and its path never goes up. -/
theorem made_of_prepareBackup (h : host.prepareBackup disk target = .ok (made, stage)) :
    .up ∉ target.steps ∧ host.Made disk made stage := by
  unfold prepareBackup at h
  obtain ⟨_, hvalid, h⟩ := Except.bind_eq_ok.mp h
  obtain ⟨_, _, h⟩ := Except.bind_eq_ok.mp h
  obtain ⟨parent, _, h⟩ := Except.bind_eq_ok.mp h
  obtain ⟨above, habove, h⟩ := Except.bind_eq_ok.mp h
  obtain ⟨stage', _, h⟩ := Except.bind_eq_ok.mp h
  obtain ⟨_, _, h⟩ := Except.bind_eq_ok.mp h
  obtain ⟨made', hmade, h⟩ := Except.bind_eq_ok.mp h
  cases h
  exact ⟨up_not_mem_steps hvalid,
    made_of_createDir (Except.mapError_eq_ok.mp habove) (Except.mapError_eq_ok.mp hmade)⟩

/-- What a restore is prepared in is a new directory, and its path never goes up. -/
theorem made_of_prepareRestore (h : host.prepareRestore disk target = .ok (made, stage)) :
    .up ∉ target.steps ∧ host.Made disk made stage := by
  unfold prepareRestore at h
  obtain ⟨_, hvalid, h⟩ := Except.bind_eq_ok.mp h
  obtain ⟨_, _, h⟩ := Except.bind_eq_ok.mp h
  obtain ⟨parent, _, h⟩ := Except.bind_eq_ok.mp h
  obtain ⟨above, habove, h⟩ := Except.bind_eq_ok.mp h
  obtain ⟨stage', _, h⟩ := Except.bind_eq_ok.mp h
  obtain ⟨made', hmade, h⟩ := Except.bind_eq_ok.mp h
  cases h
  exact ⟨up_not_mem_steps hvalid,
    made_of_createDir (Except.mapError_eq_ok.mp habove) (Except.mapError_eq_ok.mp hmade)⟩

/-- A name joined to a path is one place further down. -/
theorem place_join_name {name : EntryName} (workingDirectory : Place) :
    (path.join (.ofName name)).place workingDirectory = path.place workingDirectory ++ [name] := by
  rw [OsPath.place_join _ (OsPath.isAbsolute_ofName name), OsPath.steps_ofName]
  rfl

/-- A file that is written below a path is all that changes. -/
theorem write_join_name {name : EntryName} {contents : List UInt8}
    (h : disk.write host.workingDirectory (path.join (.ofName name)) contents = .ok later)
    (other : Place) : later.at? other =
      if other = path.place host.workingDirectory ++ [name] then some (.file contents)
      else disk.at? other := by
  obtain ⟨found, hfound, _, hat⟩ := Disk.write_eq_ok h
  have hplace := Disk.walk_place (Disk.find_eq_ok.mp hfound).2
  rw [place_join_name] at hplace
  rw [hat, hplace]

/-- While something is built in a stage: nothing else has changed since the stage stood empty. -/
structure Building (host : PortableHost) (made : Disk) (stage : OsPath) (disk : Disk)
    (directory : DataDirectory) : Prop where
  outside : ∀ place, ¬ stage.place host.workingDirectory <+: place → disk.at? place = made.at? place
  stands : disk.at? (stage.place host.workingDirectory) = some .directory
  holds : disk.below (stage.place host.workingDirectory) = directory

/-- A stage that nothing has been written into is being built as an empty directory. -/
theorem Staged.building (h : host.Staged made stage) : host.Building made stage made .empty :=
  ⟨fun _ _ => rfl, h.directory, FileTree.below_eq_empty h.empty⟩

/-- What stood on the disk before the stage was made stands there while the store is built. -/
theorem Building.keeps {directory : DataDirectory} (hmade : host.Made disk made stage)
    (h : host.Building made stage later directory) {place : Place} {entry : Entry (List UInt8)}
    (hentry : disk.at? place = some entry) : later.at? place = some entry := by
  rw [h.outside place, hmade.keeps place entry hentry]
  rintro ⟨rest, rfl⟩
  rw [FileTree.at?_below_of_none hmade.fresh] at hentry
  cases hentry

/-- A directory of before is still there while a stage is built. -/
theorem Building.keeps_directory {directory : DataDirectory} (hstaged : host.Staged made stage)
    (h : host.Building made stage later directory) {place : Place}
    (hentry : made.at? place = some .directory) : later.at? place = some .directory := by
  by_cases hprefix : stage.place host.workingDirectory <+: place
  · obtain ⟨rest, rfl⟩ := hprefix
    cases rest with
    | nil =>
      rw [List.append_nil]
      exact h.stands
    | cons name rest =>
      rw [hstaged.empty _ (List.cons_ne_nil _ _)] at hentry
      cases hentry
  · rw [h.outside place hprefix, hentry]

/-- The directory above a stage stands while the store is built. -/
theorem Building.parent {directory : DataDirectory} (hstaged : host.Staged made stage)
    (h : host.Building made stage later directory) :
    later.at? (stage.place host.workingDirectory).dropLast = some .directory :=
  h.keeps_directory hstaged hstaged.parent

/-- A directory that is put in the place of the stage is what the stage then holds; nothing else
changes. -/
theorem Building.graft {directory : DataDirectory} (h : host.Building made stage later directory)
    (next : DataDirectory)
    (hparent : later.at? (stage.place host.workingDirectory).dropLast = some .directory) :
    host.Building made stage
      (later.graft (stage.place host.workingDirectory) next hparent) next := by
  refine ⟨fun place hplace => ?_, ?_, FileTree.below_graft⟩
  · rw [FileTree.at?_graft_of_not_prefix hplace, h.outside place hplace]
  · have hbelow := @FileTree.at?_graft_below _ _ _ later (stage.place host.workingDirectory) []
      next hparent
    rw [List.append_nil] at hbelow
    rw [hbelow, FileTree.at?_nil]

/-- Pocket's work in the stage is a step of the building, and fails only where Pocket does. -/
theorem Building.onStore {directory next : DataDirectory}
    {act : DataDirectory → Except String DataDirectory} (hstaged : host.Staged made stage)
    (h : host.Building made stage later directory) (hact : act directory = .ok next) :
    ∃ after, host.onStore act stage later = .ok after ∧ host.Building made stage after next := by
  have hparent := h.parent hstaged
  refine ⟨later.graft (stage.place host.workingDirectory) next hparent, ?_, h.graft next hparent⟩
  unfold PortableHost.onStore
  refine Except.bind_eq_ok.mpr ⟨next, Except.mapError_eq_ok.mpr ?_, dif_pos hparent⟩
  rw [h.holds]
  exact hact

/-- What was done in the stage was Pocket's work on what the stage held. -/
theorem Building.of_onStore {directory : DataDirectory} {after : Disk}
    {act : DataDirectory → Except String DataDirectory}
    (h : host.Building made stage later directory)
    (hact : host.onStore act stage later = .ok after) :
    ∃ next, act directory = .ok next ∧ host.Building made stage after next := by
  unfold PortableHost.onStore at hact
  obtain ⟨next, hnext, hact⟩ := Except.bind_eq_ok.mp hact
  rw [Except.mapError_eq_ok, h.holds] at hnext
  split at hact
  · rename_i hparent
    cases hact
    exact ⟨next, hnext, h.graft next hparent⟩
  · cases hact

/-- The stage is found while it is built. -/
theorem Building.found {directory : DataDirectory} (hstaged : host.Staged made stage)
    (h : host.Building made stage later directory) :
    later.find host.workingDirectory stage = .ok (stage.place host.workingDirectory) := by
  obtain ⟨hne, hwalk⟩ := Disk.find_eq_ok.mp hstaged.found
  exact Disk.find_eq_ok.mpr ⟨hne, Disk.walk_mono (fun place => h.keeps_directory hstaged) hwalk⟩

/-- A directory that is there already can be made again, which changes nothing. -/
theorem createDirAll_of_find (hfind : disk.find host.workingDirectory path = .ok place)
    (hat : disk.at? place = some .directory) :
    ∃ later, disk.createDirAll host.workingDirectory path = .ok later ∧
      ∀ other, later.at? other = disk.at? other := by
  obtain ⟨hne, hwalk⟩ := Disk.find_eq_ok.mp hfind
  obtain ⟨later, hlater, hsame⟩ := Disk.createDirAll_of_walk hne hwalk (.inl hat)
  refine ⟨later, hlater, fun other => ?_⟩
  rw [hsame]
  split
  · rename_i heq
    rw [heq, hat]
  · rfl

/-- Creating the directory of a stage that stands changes nothing. -/
theorem Building.createDirAll {directory : DataDirectory} (hstaged : host.Staged made stage)
    (h : host.Building made stage later directory) :
    ∃ same, later.createDirAll host.workingDirectory stage = .ok same ∧
      host.Building made stage same directory := by
  obtain ⟨same, hsame, hat⟩ := createDirAll_of_find (h.found hstaged) h.stands
  refine ⟨same, hsame, fun place hplace => ?_, ?_, ?_⟩
  · rw [hat, h.outside place hplace]
  · rw [hat, h.stands]
  · rw [← h.holds]
    exact FileTree.below_eq fun rest _ => hat _

/-- A store that Pocket opens is opened in the stage. -/
theorem Building.openStore {directory next : DataDirectory} (hstaged : host.Staged made stage)
    (h : host.Building made stage later directory)
    (hopened : host.stores.opened directory = .ok next) :
    ∃ after, host.openStore stage later = .ok after ∧ host.Building made stage after next := by
  obtain ⟨same, hsame, hbuilding⟩ := h.createDirAll hstaged
  obtain ⟨after, hafter, hnext⟩ := hbuilding.onStore hstaged hopened
  refine ⟨after, ?_, hnext⟩
  unfold PortableHost.openStore
  exact Except.bind_eq_ok.mpr ⟨same, Except.mapError_eq_ok.mpr hsame, hafter⟩

/-- A store that is opened in the stage is one that Pocket opened. -/
theorem Building.of_openStore {directory : DataDirectory} {after : Disk}
    (hstaged : host.Staged made stage) (h : host.Building made stage later directory)
    (hopened : host.openStore stage later = .ok after) :
    ∃ next, host.stores.opened directory = .ok next ∧ host.Building made stage after next := by
  obtain ⟨same, hsame, hbuilding⟩ := h.createDirAll hstaged
  unfold PortableHost.openStore at hopened
  obtain ⟨same', hsame', hopened⟩ := Except.bind_eq_ok.mp hopened
  cases hsame.symm.trans (Except.mapError_eq_ok.mp hsame')
  exact hbuilding.of_onStore hopened

/-- A stage is one on every disk that has the same entries. -/
theorem Staged.of_same (h : host.Staged made stage)
    (hsame : ∀ place, later.at? place = made.at? place) :
    host.Staged later stage where
  found := by
    obtain ⟨hne, hwalk⟩ := Disk.find_eq_ok.mp h.found
    exact Disk.find_eq_ok.mpr ⟨hne, Disk.walk_mono (fun place hplace => by
      rw [hsame, hplace]) hwalk⟩
  directory := by rw [hsame, h.directory]
  empty rest hrest := by rw [hsame, h.empty rest hrest]
  parent := by rw [hsame, h.parent]

/-- An empty stage beside a store stands empty when the store was worked on. -/
theorem Staged.beside {act : DataDirectory → Except String DataDirectory} {store : OsPath}
    (h : host.Staged made stage) (hup : .up ∉ stage.steps)
    (hapart : (stage.place host.workingDirectory).Apart (store.place host.workingDirectory))
    (hact : host.onStore act store made = .ok later) : host.Staged later stage := by
  unfold PortableHost.onStore at hact
  obtain ⟨next, _, hact⟩ := Except.bind_eq_ok.mp hact
  split at hact
  · rename_i hparent
    cases hact
    have houtside : ∀ place, place <+: stage.place host.workingDirectory →
        (made.graft (store.place host.workingDirectory) next hparent).at? place =
          made.at? place := fun place hplace =>
      FileTree.at?_graft_of_not_prefix fun hstore => hapart.2 (hstore.trans hplace)
    have hstands := (houtside _ (List.prefix_refl _)).trans h.directory
    obtain ⟨hne, hwalk⟩ := Disk.find_eq_ok.mp h.found
    constructor
    · exact Disk.find_eq_ok.mpr
        ⟨hne, Disk.walk_of_directory hup (Disk.valid_of_foldlM_enter hwalk) hstands⟩
    · exact hstands
    · intro rest hrest
      rw [FileTree.at?_graft_of_not_prefix (hapart.not_prefix rest), h.empty rest hrest]
    · rw [houtside _ (List.dropLast_prefix _), h.parent]
  · cases hact

/-- The restore stores the events of the lines one after the other, where Pocket takes them. -/
theorem Building.restoreLines {directory next : DataDirectory} {lines : List (List UInt8)}
    {parsed : List ParsedBackupLine} {count : Nat} (hstaged : host.Staged made stage)
    (h : host.Building made stage later directory)
    (hlines : List.Forall₂ (host.ReadsLine policy) lines parsed)
    (hstored : (parsed.map ParsedBackupLine.event).foldlM host.stores.storeFlushed directory =
      .ok next) (hcount : count + parsed.length < 2 ^ 64) :
    ∃ after, lines.foldlM (host.restoreLine stage policy) (later, count) =
        .ok (after, count + parsed.length) ∧ host.Building made stage after next := by
  induction hlines generalizing later directory count with
  | nil =>
    cases hstored
    exact ⟨later, rfl, h⟩
  | @cons line read lines parsed hread _ ih =>
    rw [List.length_cons] at hcount ⊢
    obtain ⟨middle, hmiddle, hrest⟩ := Except.foldlM_cons_ok.mp hstored
    obtain ⟨step, hstep, hbuilding⟩ := @Building.onStore _ _ _ _ _ _
      (fun directory => host.stores.storeFlushed directory read.event) hstaged h hmiddle
    obtain ⟨after, hafter, hnext⟩ := @ih step middle (count + 1) hbuilding hrest (by omega)
    refine ⟨after, ?_, hnext⟩
    refine Except.foldlM_cons_ok.mpr ⟨(step, count + 1), ?_, ?_⟩
    · unfold restoreLine
      refine Except.bind_eq_ok.mpr ⟨read, hread.1, Except.bind_eq_ok.mpr ⟨step, hstep, ?_⟩⟩
      exact Except.bind_eq_ok.mpr ⟨(), refuseIf_eq_ok.mpr (by omega), rfl⟩
    · rw [hafter, Nat.add_assoc, Nat.add_comm 1]

/-- What the restore stored are the events of the lines, in their order, and Pocket took each. -/
theorem Building.of_restoreLines {directory : DataDirectory} {lines : List (List UInt8)}
    {parsed : List ParsedBackupLine} {count total : Nat} {after : Disk}
    (h : host.Building made stage later directory)
    (hlines : List.Forall₂ (host.ReadsLine policy) lines parsed)
    (hrestored : lines.foldlM (host.restoreLine stage policy) (later, count) =
      .ok (after, total)) :
    ∃ next, (parsed.map ParsedBackupLine.event).foldlM host.stores.storeFlushed directory =
      .ok next ∧ host.Building made stage after next := by
  induction hlines generalizing later directory count with
  | nil =>
    cases hrestored
    exact ⟨directory, rfl, h⟩
  | @cons line read lines parsed hread _ ih =>
    obtain ⟨step, hstep, hrest⟩ := Except.foldlM_cons_ok.mp hrestored
    unfold restoreLine at hstep
    obtain ⟨read', hread', hstep⟩ := Except.bind_eq_ok.mp hstep
    cases hread.1.symm.trans hread'
    obtain ⟨stored, hstored, hstep⟩ := Except.bind_eq_ok.mp hstep
    obtain ⟨_, _, hstep⟩ := Except.bind_eq_ok.mp hstep
    cases hstep
    obtain ⟨middle, hmiddle, hbuilding⟩ := h.of_onStore hstored
    obtain ⟨next, hnext, hbuilt⟩ := ih hbuilding hrest
    exact ⟨next, Except.foldlM_cons_ok.mpr ⟨middle, hmiddle, hnext⟩, hbuilt⟩

/-- A built stage is moved to where an empty one could be moved. -/
theorem Building.moved {directory : DataDirectory} {moved : Disk} (hstaged : host.Staged made stage)
    (h : host.Building made stage later directory) (hup : .up ∉ target.steps)
    (hempty : made.renameDirectory host.workingDirectory stage target = .ok moved)
    (haway : moved.at? (stage.place host.workingDirectory) = none) :
    ∃ final place, later.renameDirectory host.workingDirectory stage target = .ok final ∧
      final.find host.workingDirectory target = .ok place ∧ final.at? place = some .directory ∧
      final.below place = directory ∧
      ∀ other, ¬ stage.place host.workingDirectory <+: other → ¬ place <+: other →
        final.at? other = made.at? other := by
  obtain ⟨goal, hstage, hgoal, hroot, _, hfree, hparent, rfl⟩ :=
    Disk.renameDirectory_eq_ok.mp hempty
  -- the target does not stand in the stage
  have hout : ¬ stage.place host.workingDirectory <+: goal.dropLast := by
    intro hprefix
    rw [FileTree.at?_without hroot, if_pos hprefix] at hparent
    cases hparent
  have hne : stage.place host.workingDirectory ≠ goal := by
    rintro rfl
    have hmoved := @FileTree.at?_move_below _ _ _ made [] _ _ hparent hstaged.directory
    rw [List.append_nil, haway, hstaged.directory] at hmoved
    cases hmoved
  have haside : ¬ stage.place host.workingDirectory <+: goal := by
    rintro ⟨rest, hrest⟩
    by_cases hnil : rest = []
    · rw [hnil, List.append_nil] at hrest
      exact hne hrest
    · exact hout ⟨rest.dropLast, by rw [← hrest, List.dropLast_append_of_ne_nil hnil]⟩
  have hparentAt : made.at? goal.dropLast = some .directory := by
    rw [FileTree.at?_without hroot, if_neg hout] at hparent
    exact hparent
  have hparent' : (later.without (stage.place host.workingDirectory)).at? goal.dropLast =
      some .directory := by
    rw [FileTree.at?_without hroot, if_neg hout, h.outside _ hout, hparentAt]
  have hfree' : later.at? goal = none ∨
      later.at? goal = some .directory ∧ later.children goal = [] := by
    rw [h.outside goal haside]
    refine hfree.imp_right fun ⟨hdirectory, hchildren⟩ => ⟨hdirectory, ?_⟩
    refine List.eq_nil_iff_forall_not_mem.mpr fun name hname => ?_
    have hnone : made.at? (goal ++ [name]) = none := by
      by_contra hsome
      have hmem := FileTree.mem_children.mpr hsome
      rw [hchildren] at hmem
      cases hmem
    have hbeside : ¬ stage.place host.workingDirectory <+: goal ++ [name] := by
      intro hprefix
      have hsame := (List.prefix_concat_iff.mp hprefix).resolve_right haside
      rw [← hsame, hstaged.directory] at hnone
      cases hnone
    rw [FileTree.mem_children, h.outside _ hbeside, hnone] at hname
    exact hname rfl
  have hgoal' : later.find host.workingDirectory target.trimmed = .ok goal := by
    obtain ⟨hne, hwalk⟩ := Disk.find_eq_ok.mp hgoal
    exact Disk.find_eq_ok.mpr ⟨hne, Disk.walk_mono (fun place => h.keeps_directory hstaged) hwalk⟩
  have hat : (later.move (stage.place host.workingDirectory) goal hparent').at? goal =
      some .directory := by
    have hmoved := @FileTree.at?_move_below _ _ _ later [] _ goal hparent' h.stands
    rw [List.append_nil, List.append_nil] at hmoved
    rw [hmoved, h.stands]
  refine ⟨_, goal, Disk.renameDirectory_eq_ok.mpr
    ⟨goal, h.found hstaged, hgoal', hroot, h.stands, hfree', hparent', rfl⟩,
    Disk.find_of_trimmed hup hgoal' hat, hat, ?_, ?_⟩
  · rw [FileTree.below_move, h.holds]
  · intro other hstage hgoal
    rw [FileTree.at?_move_of_not_prefix hroot hstage hgoal, h.outside other hstage]

end PortableHost

end Tangle
