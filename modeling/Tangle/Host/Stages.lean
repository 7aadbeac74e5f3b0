import Mathlib.Data.List.DropRight
import Tangle.Host.Restores
import Tangle.Lib.FileMoves

/-!
# Stages

What is to stand at a path as a whole or not at all is made in a stage, a directory beside the path,
which is then renamed. The name of a path and the directory above it are read off its spelling. A
path without `..` can be walked as soon as a directory stands where it leads
(`Disk.walk_of_directory`), and a renamed stage is the same directory at its new place
(`Disk.renameDirectory_eq_ok`).
-/

namespace Tangle

namespace OsPath

/-- What stands between the separators of a path. -/
def segments (path : OsPath) : List (List UInt8) :=
  splitSeparators path.bytes

/-- What names no component: nothing between two separators, or a dot. -/
def skipped (segment : List UInt8) : Bool :=
  segment = [] ∨ segment = [0x2E]

/-- The segments up to the last component. -/
def named (path : OsPath) : List (List UInt8) :=
  path.segments.rdropWhile skipped

/-- `Path::parent`, when there is a parent and it is not empty. -/
def parentDirectory? (path : OsPath) : Option OsPath :=
  let above := path.named.dropLast.rdropWhile skipped
  if path.named = [] then none
  else if above ≠ [] then some ⟨[separator].intercalate above⟩
  else if path.isAbsolute then some ⟨[separator]⟩
  else if path.segments.head? = some [0x2E] then some ⟨[0x2E]⟩
  else none

/-- `Path::file_name` as a text. -/
def fileName? (path : OsPath) : Option Text :=
  match path.named.getLast? with
  | none => none
  | some name => if name = [0x2E, 0x2E] then none else Text.ofBytes? name

/-- `Path::with_file_name`, of a path with a name and a parent. -/
def withFileName (path : OsPath) (name : Text) : OsPath :=
  (path.parentDirectory?.getD ⟨[]⟩).join (ofText name)

/-- A path without the separators at its end. -/
def trimmed (path : OsPath) : OsPath :=
  ⟨path.bytes.rdropWhile (· == separator)⟩

/-- The separators at the end of a path are steps to nowhere. -/
theorem steps_trimmed (path : OsPath) : (∀ byte ∈ path.bytes, byte = separator) ∨
    ∃ count, path.steps = path.trimmed.steps ++ List.replicate count .here := by
  obtain ⟨bytes⟩ := path
  induction bytes using List.reverseRecOn with
  | nil => exact .inl nofun
  | append_singleton front last ih =>
    by_cases hlast : last = separator
    · subst hlast
      rcases ih with hall | ⟨count, hsteps⟩
      · left
        intro byte hbyte
        rcases List.mem_append.mp hbyte with hfront | hlast
        · exact hall byte hfront
        · exact List.mem_singleton.mp hlast
      · refine .inr ⟨count + 1, ?_⟩
        have htrimmed : trimmed ⟨front ++ [separator]⟩ = trimmed ⟨front⟩ := by
          rw [trimmed, trimmed, List.rdropWhile_concat_pos _ _ _ (by simp)]
        rw [htrimmed, steps, splitSeparators_append, List.map_append, List.replicate_succ',
          ← List.append_assoc, ← hsteps]
        rfl
    · refine .inr ⟨0, ?_⟩
      have htrimmed : trimmed ⟨front ++ [last]⟩ = ⟨front ++ [last]⟩ := by
        rw [trimmed, List.rdropWhile_concat_neg _ _ _ (by simpa using hlast)]
      rw [htrimmed, List.replicate_zero, List.append_nil]

end OsPath

namespace Disk

variable {disk later : Disk} {workingDirectory : Place} {path target : OsPath} {place other : Place}

/-- `fs::create_dir`. -/
def createDir (disk : Disk) (workingDirectory : Place) (path : OsPath) : Except IoError Disk := do
  let place ← disk.find workingDirectory path
  if hfree : disk.at? place = none then
    if hparent : disk.at? place.dropLast = some .directory then
      return disk.put place .directory hparent (hfree ▸ nofun)
    else
      .error .notFound
  else
    .error .alreadyExists

/-- `fs::rename` of a directory, to where nothing stands or an empty directory. -/
def renameDirectory (disk : Disk) (workingDirectory : Place) (source target : OsPath) :
    Except IoError Disk := do
  let start ← disk.find workingDirectory source
  let goal ← disk.find workingDirectory target.trimmed
  if start = [] ∨ disk.at? start ≠ some .directory then
    .error .notADirectory
  else if disk.at? goal ≠ none ∧ (disk.at? goal ≠ some .directory ∨ disk.children goal ≠ []) then
    .error .alreadyExists
  else if hparent : (disk.without start).at? goal.dropLast = some .directory then
    return disk.move start goal hparent
  else
    .error .notFound

/-! ### Walks without `..` -/

theorem prefix_foldl_move {steps : List PathStep} (hup : .up ∉ steps) :
    place <+: steps.foldl OsPath.move place := by
  induction steps generalizing place with
  | nil => exact List.prefix_refl _
  | cons step steps ih =>
    obtain ⟨hstep, hsteps⟩ := not_or.mp (mt List.mem_cons.mpr hup)
    refine List.IsPrefix.trans ?_ (ih hsteps)
    cases step with
    | here | invalid => exact List.prefix_refl _
    | up => exact absurd rfl hstep
    | name name => exact List.prefix_append _ _

theorem directory_of_prefix (h : place <+: other) (hother : disk.at? other = some .directory) :
    disk.at? place = some .directory := by
  obtain ⟨rest, rfl⟩ := h
  cases rest with
  | nil => rwa [List.append_nil] at hother
  | cons name rest =>
    have hbelow : disk.at? (place ++ name :: rest) ≠ none := by
      rw [hother]
      exact Option.some_ne_none _
    exact FileTree.directory_of_below hbelow

theorem foldlM_enter_of_directory {steps : List PathStep} (hup : .up ∉ steps)
    (hvalid : .invalid ∉ steps)
    (h : disk.at? (steps.foldl OsPath.move place) = some .directory) :
    steps.foldlM disk.enter place = .ok (steps.foldl OsPath.move place) := by
  induction steps generalizing place with
  | nil => rfl
  | cons step steps ih =>
    obtain ⟨_, hups⟩ := not_or.mp (mt List.mem_cons.mpr hup)
    obtain ⟨hstep, hvalids⟩ := not_or.mp (mt List.mem_cons.mpr hvalid)
    have hdirectory : disk.at? place = some .directory :=
      directory_of_prefix (prefix_foldl_move hup) h
    exact Except.bind_eq_ok.mpr ⟨OsPath.move place step,
      enter_eq_ok.mpr ⟨hdirectory, Ne.symm hstep, rfl⟩, ih hups hvalids h⟩

/-- A path without `..` can be walked when a directory stands where it leads. -/
theorem walk_of_directory (hup : .up ∉ path.steps) (hvalid : .invalid ∉ path.steps)
    (h : disk.at? (path.place workingDirectory) = some .directory) :
    disk.walk workingDirectory path = .ok (path.place workingDirectory) :=
  foldlM_enter_of_directory hup hvalid h

theorem valid_of_foldlM_enter {steps : List PathStep}
    (h : steps.foldlM disk.enter place = .ok other) :
    .invalid ∉ steps := by
  induction steps generalizing place with
  | nil => exact List.not_mem_nil
  | cons step steps ih =>
    obtain ⟨next, hnext, hrest⟩ := Except.bind_eq_ok.mp h
    rw [List.mem_cons, not_or]
    exact ⟨Ne.symm (enter_eq_ok.mp hnext).2.1, ih hrest⟩

/-- A path whose spelling can be walked up to its last separators is found when a directory stands
where it leads. -/
theorem find_of_trimmed (hup : .up ∉ path.steps)
    (h : disk.find workingDirectory path.trimmed = .ok place)
    (hdirectory : later.at? place = some .directory) :
    later.find workingDirectory path = .ok place := by
  obtain ⟨hne, hwalk⟩ := find_eq_ok.mp h
  rcases path.steps_trimmed with hall | ⟨count, hsteps⟩
  · refine absurd ?_ hne
    rw [OsPath.trimmed, List.rdropWhile_eq_nil_iff]
    exact fun byte hbyte => beq_iff_eq.mpr (hall byte hbyte)
  · have hstart : path.trimmed.start workingDirectory = path.start workingDirectory := by
      have habsolute : path.trimmed.isAbsolute = path.isAbsolute := by
        obtain ⟨rest, hrest⟩ := List.rdropWhile_prefix (· == separator) path.bytes
        have hhead : path.trimmed.bytes.head? = path.bytes.head? :=
          calc path.trimmed.bytes.head? = (path.trimmed.bytes ++ rest).head? :=
                (List.head?_append_of_ne_nil _ hne).symm
            _ = path.bytes.head? := congrArg List.head? hrest
        rw [OsPath.isAbsolute, hhead, OsPath.isAbsolute]
      rw [OsPath.start, OsPath.start, habsolute]
    have hbytes : path.bytes ≠ [] := fun hnil => hne (by rw [OsPath.trimmed, hnil]; rfl)
    have hplace := walk_place hwalk
    have hgone : later.walk workingDirectory path.trimmed = .ok place := by
      rw [hplace]
      refine walk_of_directory (fun hin => hup ?_) (valid_of_foldlM_enter hwalk) ?_
      · rw [hsteps]
        exact List.mem_append_left _ hin
      · rw [← hplace, hdirectory]
    have hstays : ∀ count : Nat,
        (List.replicate count PathStep.here).foldlM later.enter place = .ok place := by
      intro count
      induction count with
      | zero => rfl
      | succ count ih =>
        exact Except.bind_eq_ok.mpr ⟨place, enter_eq_ok.mpr ⟨hdirectory, by simp, rfl⟩, ih⟩
    refine find_eq_ok.mpr ⟨hbytes, ?_⟩
    unfold walk
    rw [hsteps, ← hstart, List.foldlM_append]
    exact Except.bind_eq_ok.mpr ⟨place, hgone, hstays count⟩

/-! ### Making and moving -/

theorem createDir_eq_ok (h : disk.createDir workingDirectory path = .ok later) :
    disk.find workingDirectory path = .ok (path.place workingDirectory) ∧
      disk.at? (path.place workingDirectory) = none ∧
      disk.at? (path.place workingDirectory).dropLast = some .directory ∧
      ∀ other, later.at? other =
        if other = path.place workingDirectory then some .directory else disk.at? other := by
  unfold createDir at h
  obtain ⟨place, hfind, h⟩ := Except.bind_eq_ok.mp h
  cases walk_place (find_eq_ok.mp hfind).2
  split at h
  · rename_i hfree
    split at h
    · rename_i hparent
      cases h
      exact ⟨hfind, hfree, hparent, fun other => FileTree.at?_put⟩
    · cases h
  · cases h

/-- A directory is renamed when it can be moved to where nothing stands or an empty directory. -/
theorem renameDirectory_eq_ok : disk.renameDirectory workingDirectory path target = .ok later ↔
    ∃ goal, disk.find workingDirectory path = .ok (path.place workingDirectory) ∧
      disk.find workingDirectory target.trimmed = .ok goal ∧
      path.place workingDirectory ≠ [] ∧
      disk.at? (path.place workingDirectory) = some .directory ∧
      (disk.at? goal = none ∨ disk.at? goal = some .directory ∧ disk.children goal = []) ∧
      ∃ hparent : (disk.without (path.place workingDirectory)).at? goal.dropLast = some .directory,
        later = disk.move (path.place workingDirectory) goal hparent := by
  unfold renameDirectory
  rw [Except.bind_eq_ok]
  constructor
  · rintro ⟨start, hstart, h⟩
    obtain ⟨goal, hgoal, h⟩ := Except.bind_eq_ok.mp h
    cases walk_place (find_eq_ok.mp hstart).2
    split at h
    · cases h
    · rename_i hdirectory
      obtain ⟨hroot, hdirectory⟩ := not_or.mp hdirectory
      split at h
      · cases h
      · rename_i hfree
        split at h
        · rename_i hparent
          cases h
          refine ⟨goal, hstart, hgoal, hroot, not_not.mp hdirectory, ?_, hparent, rfl⟩
          by_cases hnone : disk.at? goal = none
          · exact .inl hnone
          · obtain ⟨hother, hempty⟩ := not_or.mp fun hor => hfree ⟨hnone, hor⟩
            exact .inr ⟨not_not.mp hother, not_not.mp hempty⟩
        · cases h
  · rintro ⟨goal, hstart, hgoal, hroot, hdirectory, hfree, hparent, rfl⟩
    refine ⟨_, hstart, Except.bind_eq_ok.mpr ⟨goal, hgoal, ?_⟩⟩
    rw [if_neg (not_or.mpr ⟨hroot, not_not.mpr hdirectory⟩), if_neg ?_, dif_pos hparent]
    · rfl
    · rintro ⟨hnone, hother | hempty⟩
      · exact hother (hfree.resolve_left hnone).1
      · exact hempty (hfree.resolve_left hnone).2

end Disk

end Tangle
