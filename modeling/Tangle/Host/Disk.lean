import Mathlib.Data.UInt
import Tangle.Lib.Except
import Tangle.Lib.FileTree
import Tangle.Lib.Utf8Lossy
import Tangle.Protocol.Text

/-!
# Files on a disk

A path is spelled in bytes, and its separators split it into steps: to a name, up, or nowhere. A
path leads from the working directory to a place (`OsPath.place`), and the disk can be walked along
it only through directories (`Disk.walk`). The directory that a path is joined to is walked first
(`Disk.walk_join`). Making a directory with all above it adds directories alone
(`Disk.createDirAll_grows`).
-/

namespace Tangle

/-! ## Names and paths -/

/-- The byte that separates the names of a path. -/
def separator : UInt8 := 0x2F

/-- What names an entry of a directory. -/
def IsEntryName (bytes : List UInt8) : Prop :=
  bytes ≠ [] ∧ bytes ≠ [0x2E] ∧ bytes ≠ [0x2E, 0x2E] ∧ separator ∉ bytes ∧ 0 ∉ bytes

instance (bytes : List UInt8) : Decidable (IsEntryName bytes) :=
  inferInstanceAs (Decidable (_ ∧ _))

/-- The name of an entry of a directory. -/
structure EntryName where
  bytes : List UInt8
  isEntryName : IsEntryName bytes

namespace EntryName

/-- The bytes as numbers, which a list orders as the bytes are ordered. -/
def numbers (name : EntryName) : List Nat :=
  name.bytes.map UInt8.toNat

/-- Names are told apart by the numbers that order them. -/
theorem numbers_injective : Function.Injective numbers := by
  intro a b h
  have hbytes : a.bytes = b.bytes := List.map_injective_iff.mpr (fun _ _ => UInt8.toNat.inj) h
  cases a
  cases b
  cases hbytes
  rfl

instance : LinearOrder EntryName :=
  LinearOrder.lift' numbers numbers_injective

end EntryName

/-- Where a file or a directory stands: the names that lead to it from the root. -/
abbrev Place : Type := List EntryName

/-- What one component of a path asks for. -/
inductive PathStep where
  | here | up
  | name (name : EntryName)
  /-- A name with a NUL byte, which no call takes. -/
  | invalid

/-- What a part of a path asks for. -/
def PathStep.ofBytes (bytes : List UInt8) : PathStep :=
  if bytes = [] ∨ bytes = [0x2E] then .here
  else if bytes = [0x2E, 0x2E] then .up
  else if h : IsEntryName bytes then .name ⟨bytes, h⟩
  else .invalid

/-- A name is read as itself. -/
theorem PathStep.ofBytes_name (name : EntryName) : ofBytes name.bytes = .name name := by
  obtain ⟨hnil, hdot, hdots, _⟩ := name.isEntryName
  unfold ofBytes
  rw [if_neg (not_or.mpr ⟨hnil, hdot⟩), if_neg hdots, dif_pos name.isEntryName]

/-- What stands between separators. -/
def splitSeparators : List UInt8 → List (List UInt8)
  | [] => [[]]
  | byte :: bytes =>
    if byte = separator then
      [] :: splitSeparators bytes
    else
      match splitSeparators bytes with
      | [] => [[byte]]
      | first :: rest => (byte :: first) :: rest

/-- There is always a part, if only an empty one. -/
theorem splitSeparators_ne_nil (bytes : List UInt8) : splitSeparators bytes ≠ [] := by
  cases bytes with
  | nil => exact List.cons_ne_nil _ _
  | cons byte bytes =>
    rw [splitSeparators]
    split
    · exact List.cons_ne_nil _ _
    · split <;> exact List.cons_ne_nil _ _

/-- A separator ends a part. -/
theorem splitSeparators_append (before after : List UInt8) :
    splitSeparators (before ++ separator :: after) =
      splitSeparators before ++ splitSeparators after := by
  induction before with
  | nil => simp [splitSeparators]
  | cons byte before ih =>
    rw [List.cons_append, splitSeparators, splitSeparators, ih]
    split
    · rfl
    · cases hbefore : splitSeparators before with
      | nil => exact absurd hbefore (splitSeparators_ne_nil before)
      | cons first rest => rfl

/-- Without a separator there is one part. -/
theorem splitSeparators_of_not_mem {bytes : List UInt8} (h : separator ∉ bytes) :
    splitSeparators bytes = [bytes] := by
  induction bytes with
  | nil => rfl
  | cons byte bytes ih =>
    obtain ⟨hbyte, hbytes⟩ := not_or.mp (mt List.mem_cons.mpr h)
    rw [splitSeparators, if_neg (Ne.symm hbyte), ih hbytes]

/-- Names with separators between them split into the names. -/
theorem splitSeparators_intercalate {names : List (List UInt8)} (hne : names ≠ [])
    (h : ∀ name ∈ names, separator ∉ name) :
    splitSeparators ([separator].intercalate names) = names := by
  induction names with
  | nil => exact absurd rfl hne
  | cons name names ih =>
    have hname := splitSeparators_of_not_mem (h name List.mem_cons_self)
    cases names with
    | nil => rw [List.intercalate_singleton, hname]
    | cons next names =>
      rw [List.intercalate_cons_cons, List.append_assoc, List.singleton_append,
        splitSeparators_append, hname,
        ih (List.cons_ne_nil _ _) (fun other hother => h other (List.mem_cons_of_mem _ hother))]
      rfl

/-- A path as it is spelled. -/
structure OsPath where
  bytes : List UInt8
deriving DecidableEq

/-- The bytes of a text. -/
def Text.toBytes (text : Text) : List UInt8 :=
  text.flatMap String.utf8EncodeChar

namespace OsPath

/-- A path that is spelled by a text. -/
def ofText (text : Text) : OsPath :=
  ⟨text.toBytes⟩

/-- A path of one name. -/
def ofName (name : EntryName) : OsPath :=
  ⟨name.bytes⟩

/-- Whether a path starts at the root. -/
def isAbsolute (path : OsPath) : Bool :=
  path.bytes.head? == some separator

/-- `PathBuf::join`. -/
def join (path tail : OsPath) : OsPath :=
  if tail.isAbsolute then tail
  else if path.bytes = [] ∨ path.bytes.getLast? = some separator then ⟨path.bytes ++ tail.bytes⟩
  else ⟨path.bytes ++ separator :: tail.bytes⟩

/-- `Path::display`. -/
def display (path : OsPath) : Text :=
  fromUtf8Lossy path.bytes

/-- The steps of a path, one for each part. -/
def steps (path : OsPath) : List PathStep :=
  (splitSeparators path.bytes).map PathStep.ofBytes

/-- Where a step leads from a place. -/
def move (place : Place) : PathStep → Place
  | .here | .invalid => place
  | .up => place.dropLast
  | .name name => place ++ [name]

/-- Where a path starts. -/
def start (path : OsPath) (workingDirectory : Place) : Place :=
  if path.isAbsolute then [] else workingDirectory

/-- The place a path leads to. -/
def place (path : OsPath) (workingDirectory : Place) : Place :=
  path.steps.foldl move (path.start workingDirectory)

/-- A name is one step. -/
theorem steps_ofName (name : EntryName) : (ofName name).steps = [.name name] := by
  obtain ⟨_, _, _, hseparator, _⟩ := name.isEntryName
  rw [steps, ofName, splitSeparators_of_not_mem hseparator, List.map_singleton,
    PathStep.ofBytes_name]

/-- A name does not start at the root. -/
theorem isAbsolute_ofName (name : EntryName) : (ofName name).isAbsolute = false := by
  obtain ⟨hnil, _, _, hseparator, _⟩ := name.isEntryName
  cases hbytes : name.bytes with
  | nil => exact absurd hbytes hnil
  | cons byte bytes =>
    rw [hbytes, List.mem_cons, not_or] at hseparator
    simp [isAbsolute, ofName, hbytes, Ne.symm hseparator.1]

/-- Joined to something, a path is not the empty one. -/
theorem join_bytes_ne_nil {path tail : OsPath} (h : tail.bytes ≠ []) :
    (path.join tail).bytes ≠ [] := by
  unfold join
  split_ifs
  · exact h
  · exact List.append_ne_nil_of_right_ne_nil _ h
  · exact List.append_ne_nil_of_right_ne_nil _ (List.cons_ne_nil _ _)

/-- The steps of a joined path are those of the path and those of its tail; a separator at the end
of the path, or no path at all, is a step to nowhere. -/
theorem steps_join {path tail : OsPath} (h : tail.isAbsolute = false) :
    ∃ first, (path.steps = first ∨ path.steps = first ++ [.here]) ∧
      (path.join tail).steps = first ++ tail.steps := by
  unfold join
  rw [h, if_neg Bool.false_ne_true]
  split_ifs with hend
  · rcases hend with hnil | hlast
    · refine ⟨[], .inr ?_, ?_⟩
      · rw [steps, hnil]
        rfl
      · rw [hnil]
        rfl
    · obtain ⟨front, hfront⟩ := List.getLast?_eq_some_iff.mp hlast
      refine ⟨(splitSeparators front).map PathStep.ofBytes, .inr ?_, ?_⟩
      · rw [steps, hfront, splitSeparators_append, List.map_append]
        rfl
      · rw [steps, hfront, List.append_assoc, List.singleton_append, splitSeparators_append,
          List.map_append, steps]
  · refine ⟨path.steps, .inl rfl, ?_⟩
    rw [steps, splitSeparators_append, List.map_append, steps, steps]

/-- A path joined to another starts where that one starts. -/
theorem start_join {path tail : OsPath} (workingDirectory : Place) (h : tail.isAbsolute = false) :
    (path.join tail).start workingDirectory = path.start workingDirectory := by
  have habsolute : (path.join tail).isAbsolute = path.isAbsolute := by
    unfold join
    rw [h, if_neg Bool.false_ne_true]
    cases hpath : path.bytes with
    | nil =>
      rw [if_pos (.inl rfl), List.nil_append, h, isAbsolute, hpath]
      rfl
    | cons byte bytes =>
      split_ifs <;> rw [isAbsolute, isAbsolute, hpath] <;> rfl
  rw [start, start, habsolute]

/-- A path joined to another leads on from where that one leads. -/
theorem place_join {path tail : OsPath} (workingDirectory : Place) (h : tail.isAbsolute = false) :
    (path.join tail).place workingDirectory =
      tail.steps.foldl move (path.place workingDirectory) := by
  obtain ⟨first, hpath, hjoin⟩ := @steps_join path tail h
  rw [place, place, hjoin, start_join workingDirectory h, List.foldl_append]
  rcases hpath with hpath | hpath
  · rw [hpath]
  · rw [hpath, List.foldl_append]
    rfl

end OsPath

/-! ## The disk -/

/-- The disk: its files hold bytes. -/
abbrev Disk : Type := FileTree EntryName (List UInt8)

/-- What a call of the operating system fails with. -/
inductive IoError where
  | notFound | notADirectory | isADirectory | alreadyExists | nameTooLong | invalidInput
  | invalidData
deriving DecidableEq

/-- The message that the operating system gives. -/
def IoError.message : IoError → String
  | .notFound => "No such file or directory (os error 2)"
  | .notADirectory => "Not a directory (os error 20)"
  | .isADirectory => "Is a directory (os error 21)"
  | .alreadyExists => "File exists (os error 17)"
  | .nameTooLong => "File name too long (os error 36)"
  | .invalidInput => "file name contained an unexpected NUL byte"
  | .invalidData => "stream did not contain valid UTF-8"

namespace Disk

variable {disk later : Disk} {workingDirectory : Place} {path tail : OsPath} {place other : Place}
  {name : EntryName}

/-- One step of a walk: it starts in a directory. -/
def enter (disk : Disk) (place : Place) (step : PathStep) : Except IoError Place :=
  match disk.at? place, step with
  | none, _ => .error .notFound
  | some (.file _), _ => .error .notADirectory
  | some .directory, .invalid => .error .invalidInput
  | some .directory, step => .ok (OsPath.move place step)

/-- The place a path leads to when the disk is walked along it. There may be nothing there. -/
def walk (disk : Disk) (workingDirectory : Place) (path : OsPath) : Except IoError Place :=
  path.steps.foldlM disk.enter (path.start workingDirectory)

/-- Where a path leads to; the empty path leads nowhere. -/
def find (disk : Disk) (workingDirectory : Place) (path : OsPath) : Except IoError Place :=
  if path.bytes = [] then .error .notFound else disk.walk workingDirectory path

/-- `fs::metadata` and `fs::symlink_metadata`, on a disk without symbolic links. -/
def metadata (disk : Disk) (workingDirectory : Place) (path : OsPath) :
    Except IoError (Entry (List UInt8)) := do
  match disk.at? (← disk.find workingDirectory path) with
  | some entry => return entry
  | none => .error .notFound

/-- `Path::exists`. -/
def pathExists (disk : Disk) (workingDirectory : Place) (path : OsPath) : Bool :=
  (disk.metadata workingDirectory path).toBool

/-- `Path::is_dir`. -/
def isDir (disk : Disk) (workingDirectory : Place) (path : OsPath) : Bool :=
  match disk.metadata workingDirectory path with
  | .ok .directory => true
  | _ => false

/-- `fs::read_dir`: the names in a directory, in order. -/
def readDir (disk : Disk) (workingDirectory : Place) (path : OsPath) :
    Except IoError (List EntryName) := do
  let place ← disk.find workingDirectory path
  match disk.at? place with
  | some .directory => return disk.children place
  | some (.file _) => .error .notADirectory
  | none => .error .notFound

/-- `fs::read`. -/
def read (disk : Disk) (workingDirectory : Place) (path : OsPath) :
    Except IoError (List UInt8) := do
  match ← disk.metadata workingDirectory path with
  | .file contents => return contents
  | .directory => .error .isADirectory

/-- `fs::write`. -/
def write (disk : Disk) (workingDirectory : Place) (path : OsPath) (contents : List UInt8) :
    Except IoError Disk := do
  let place ← disk.find workingDirectory path
  if hfree : disk.at? place = some .directory then
    .error .isADirectory
  else if hparent : disk.at? place.dropLast = some .directory then
    return disk.put place (.file contents) hparent hfree
  else
    .error .notFound

/-- One step of making the directories that a path leads through. -/
def makeStep (made : Disk × Place) (step : PathStep) : Except IoError (Disk × Place) :=
  if hdirectory : made.1.at? made.2 = some .directory then
    match step with
    | .invalid => .error .invalidInput
    | .name name =>
      if hfree : made.1.at? (made.2 ++ [name]) = none then
        .ok (made.1.put (made.2 ++ [name]) .directory
          (by rw [List.dropLast_concat]; exact hdirectory) (hfree ▸ nofun), made.2 ++ [name])
      else
        .ok (made.1, made.2 ++ [name])
    | step => .ok (made.1, OsPath.move made.2 step)
  else
    .error .notADirectory

/-- `fs::create_dir_all`. -/
def createDirAll (disk : Disk) (workingDirectory : Place) (path : OsPath) : Except IoError Disk :=
  if path.bytes = [] then
    .ok disk
  else do
    let made ← path.steps.foldlM makeStep (disk, path.start workingDirectory)
    if made.1.at? made.2 = some .directory then return made.1 else .error .alreadyExists

/-! ### Walks -/

/-- A step is taken from a directory, unless it cannot be taken at all. -/
theorem enter_eq_ok {step : PathStep} : disk.enter place step = .ok other ↔
    disk.at? place = some .directory ∧ step ≠ .invalid ∧ other = OsPath.move place step := by
  unfold enter
  split
  · rename_i hnone
    simp [hnone]
  · rename_i hfile
    simp [hfile]
  · rename_i hdirectory
    simp
  · rename_i hdirectory hvalid
    constructor
    · intro h
      exact ⟨hdirectory, hvalid, (Except.ok.inj h).symm⟩
    · rintro ⟨_, _, hmove⟩
      rw [hmove]

/-- A step to nowhere asks what the next step asks. -/
theorem enter_here (disk : Disk) (place : Place) (step : PathStep) :
    (disk.enter place .here >>= fun place => disk.enter place step) = disk.enter place step := by
  unfold enter
  cases hplace : disk.at? place with
  | none => rfl
  | some entry =>
    cases entry with
    | file contents => rfl
    | directory => simp [OsPath.move, hplace]

/-- A walk ends where its steps lead. -/
theorem foldlM_enter_place {steps : List PathStep}
    (h : steps.foldlM disk.enter place = .ok other) : other = steps.foldl OsPath.move place := by
  induction steps generalizing place with
  | nil => exact (Except.ok.inj h).symm
  | cons step steps ih =>
    obtain ⟨next, hnext, hrest⟩ := Except.bind_eq_ok.mp h
    rw [List.foldl_cons, ← (enter_eq_ok.mp hnext).2.2]
    exact ih hrest

/-- A walk ends where the path leads. -/
theorem walk_place (h : disk.walk workingDirectory path = .ok place) :
    place = path.place workingDirectory :=
  foldlM_enter_place h

/-- A walk stays possible while directories stay. -/
theorem foldlM_enter_mono
    (hkeeps : ∀ place, disk.at? place = some .directory → later.at? place = some .directory)
    {steps : List PathStep} (h : steps.foldlM disk.enter place = .ok other) :
    steps.foldlM later.enter place = .ok other := by
  induction steps generalizing place with
  | nil => exact h
  | cons step steps ih =>
    obtain ⟨next, hnext, hrest⟩ := Except.bind_eq_ok.mp h
    obtain ⟨hdirectory, hvalid, hmove⟩ := enter_eq_ok.mp hnext
    exact Except.bind_eq_ok.mpr
      ⟨next, enter_eq_ok.mpr ⟨hkeeps _ hdirectory, hvalid, hmove⟩, ih hrest⟩

/-- What can be walked can be walked when there are more directories. -/
theorem walk_mono
    (hkeeps : ∀ place, disk.at? place = some .directory → later.at? place = some .directory)
    (h : disk.walk workingDirectory path = .ok place) :
    later.walk workingDirectory path = .ok place :=
  foldlM_enter_mono hkeeps h

/-- The directory that a path is joined to is walked first. -/
theorem walk_join (h : tail.isAbsolute = false) (hne : tail.steps ≠ []) :
    disk.walk workingDirectory (path.join tail) =
      disk.walk workingDirectory path >>= fun place => tail.steps.foldlM disk.enter place := by
  obtain ⟨first, hpath, hjoin⟩ := @OsPath.steps_join path tail h
  unfold walk
  rw [hjoin, OsPath.start_join workingDirectory h, List.foldlM_append]
  rcases hpath with hpath | hpath
  · rw [hpath]
  · rw [hpath, List.foldlM_append, bind_assoc]
    congr 1
    funext place
    cases hsteps : tail.steps with
    | nil => exact absurd hsteps hne
    | cons step steps =>
      have hhere := enter_here disk place step
      simp only [List.foldlM_cons, List.foldlM_nil, bind_assoc, pure_bind]
      rw [← hhere, bind_assoc]

/-- A name in a directory leads one further. -/
theorem walk_join_name (hwalk : disk.walk workingDirectory path = .ok place)
    (hdirectory : disk.at? place = some .directory) :
    disk.walk workingDirectory (path.join (.ofName name)) = .ok (place ++ [name]) := by
  have hsteps := OsPath.steps_ofName name
  have hne : (OsPath.ofName name).steps ≠ [] := by
    rw [hsteps]
    exact List.cons_ne_nil _ _
  rw [walk_join (OsPath.isAbsolute_ofName name) hne, hwalk, hsteps]
  refine Except.bind_eq_ok.mpr ⟨place, rfl, Except.bind_eq_ok.mpr ⟨place ++ [name], ?_, rfl⟩⟩
  exact enter_eq_ok.mpr ⟨hdirectory, nofun, rfl⟩

/-- A path is found when it is not empty and can be walked. -/
theorem find_eq_ok : disk.find workingDirectory path = .ok place ↔
    path.bytes ≠ [] ∧ disk.walk workingDirectory path = .ok place := by
  unfold find
  split
  · rename_i hempty
    simp [hempty]
  · rename_i hempty
    simp [hempty]

/-- A name in a directory is found there. -/
theorem find_join_name (hwalk : disk.walk workingDirectory path = .ok place)
    (hdirectory : disk.at? place = some .directory) :
    disk.find workingDirectory (path.join (.ofName name)) = .ok (place ++ [name]) :=
  find_eq_ok.mpr ⟨OsPath.join_bytes_ne_nil name.isEntryName.1, walk_join_name hwalk hdirectory⟩

/-! ### Calls -/

/-- What stands at a path is what stands where the path leads. -/
theorem metadata_eq_ok {entry : Entry (List UInt8)} :
    disk.metadata workingDirectory path = .ok entry ↔
      ∃ place, disk.find workingDirectory path = .ok place ∧ disk.at? place = some entry := by
  unfold metadata
  rw [Except.bind_eq_ok]
  refine exists_congr fun place => and_congr_right fun _ => ?_
  cases disk.at? place with
  | none => simp
  | some found => exact ⟨fun h => congrArg some (Except.ok.inj h), fun h => Option.some.inj h ▸ rfl⟩

/-- What is found is seen. -/
theorem metadata_of_find {entry : Entry (List UInt8)}
    (hfind : disk.find workingDirectory path = .ok place) (hentry : disk.at? place = some entry) :
    disk.metadata workingDirectory path = .ok entry :=
  metadata_eq_ok.mpr ⟨place, hfind, hentry⟩

/-- A directory is where a path leads to one. -/
theorem isDir_iff : disk.isDir workingDirectory path = true ↔
    ∃ place, disk.find workingDirectory path = .ok place ∧ disk.at? place = some .directory := by
  rw [← metadata_eq_ok]
  unfold isDir
  split
  · rename_i hdirectory
    simp [hdirectory]
  · rename_i hother
    exact ⟨fun h => absurd h Bool.false_ne_true, fun h => absurd h hother⟩

/-- The names in a directory that is found. -/
theorem readDir_of_find (hfind : disk.find workingDirectory path = .ok place)
    (hdirectory : disk.at? place = some .directory) :
    disk.readDir workingDirectory path = .ok (disk.children place) := by
  unfold readDir
  rw [hfind]
  show (match disk.at? place with
    | some .directory => _
    | some (.file _) => _
    | none => _) = _
  rw [hdirectory]
  rfl

/-- A file is read where a path leads to one. -/
theorem read_eq_ok {contents : List UInt8} : disk.read workingDirectory path = .ok contents ↔
    ∃ place, disk.find workingDirectory path = .ok place ∧ disk.file? place = some contents := by
  unfold read
  rw [Except.bind_eq_ok]
  constructor
  · rintro ⟨entry, hentry, hread⟩
    obtain ⟨place, hfind, hat⟩ := metadata_eq_ok.mp hentry
    cases entry with
    | file found => exact ⟨place, hfind, FileTree.file?_eq_some.mpr (Except.ok.inj hread ▸ hat)⟩
    | directory => cases hread
  · rintro ⟨place, hfind, hfile⟩
    exact ⟨.file contents, metadata_of_find hfind (FileTree.file?_eq_some.mp hfile), rfl⟩

/-- Writing a file changes nothing else. -/
theorem write_eq_ok {contents : List UInt8}
    (h : disk.write workingDirectory path contents = .ok later) :
    ∃ place, disk.find workingDirectory path = .ok place ∧ disk.at? place ≠ some .directory ∧
      ∀ other, later.at? other = if other = place then some (.file contents)
        else disk.at? other := by
  unfold write at h
  obtain ⟨place, hfind, h⟩ := Except.bind_eq_ok.mp h
  split at h
  · cases h
  · rename_i hfree
    split at h
    · cases h
      exact ⟨place, hfind, hfree, fun other => FileTree.at?_put⟩
    · cases h

/-- A file can be written where nothing or a file stands in a directory. -/
theorem write_of_find {contents : List UInt8}
    (hfind : disk.find workingDirectory path = .ok (place ++ [name]))
    (hdirectory : disk.at? place = some .directory)
    (hfree : disk.at? (place ++ [name]) ≠ some .directory) :
    ∃ later, disk.write workingDirectory path contents = .ok later := by
  have hparent : disk.at? (place ++ [name]).dropLast = some .directory := by
    rw [List.dropLast_concat, hdirectory]
  refine ⟨disk.put (place ++ [name]) (.file contents) hparent hfree, ?_⟩
  unfold write
  rw [hfind]
  show (if hfree : _ then _ else if hparent : _ then _ else _) = _
  rw [dif_neg hfree, dif_pos hparent]
  rfl

/-! ### Making directories -/

/-- What a step of making directories leaves: the disk has grown, and any disk that has grown from
it can be walked. -/
theorem makeStep_grows {made next : Disk × Place} {step : PathStep}
    (h : makeStep made step = .ok next) :
    made.1.Grows next.1 ∧ made.1.enter made.2 step = .ok next.2 := by
  unfold makeStep at h
  split at h
  · rename_i hdirectory
    rw [enter_eq_ok]
    split at h
    · cases h
    · split at h
      · rename_i hfree
        cases h
        exact ⟨FileTree.grows_put (by rw [List.dropLast_concat]; exact hdirectory) hfree,
          hdirectory,
          nofun, rfl⟩
      · cases h
        exact ⟨.refl _, hdirectory, nofun, rfl⟩
    · rename_i hvalid _
      cases h
      exact ⟨.refl _, hdirectory, hvalid, rfl⟩
  · cases h

/-- Making directories along steps adds directories alone, and the steps can be walked after
that. -/
theorem foldlM_makeStep_grows {steps : List PathStep} {made last : Disk × Place}
    (h : steps.foldlM makeStep made = .ok last) :
    made.1.Grows last.1 ∧ steps.foldlM last.1.enter made.2 = .ok last.2 := by
  induction steps generalizing made with
  | nil =>
    cases h
    exact ⟨.refl _, rfl⟩
  | cons step steps ih =>
    obtain ⟨next, hnext, hrest⟩ := Except.bind_eq_ok.mp h
    obtain ⟨hgrows, henter⟩ := makeStep_grows hnext
    obtain ⟨hgrowsRest, hwalk⟩ := ih hrest
    obtain ⟨hdirectory, hvalid, hmove⟩ := enter_eq_ok.mp henter
    refine ⟨hgrows.trans hgrowsRest, Except.bind_eq_ok.mpr ⟨next.2, ?_, hwalk⟩⟩
    exact enter_eq_ok.mpr ⟨(hgrows.trans hgrowsRest).keeps _ _ hdirectory, hvalid, hmove⟩

/-- Making the directories of a path adds directories alone, and leaves a directory where the path
leads. -/
theorem createDirAll_grows (h : disk.createDirAll workingDirectory path = .ok later) :
    disk.Grows later ∧ (path.bytes ≠ [] → ∃ place,
      later.walk workingDirectory path = .ok place ∧ later.at? place = some .directory) := by
  unfold createDirAll at h
  split at h
  · rename_i hempty
    cases h
    exact ⟨.refl _, fun hne => absurd hempty hne⟩
  · obtain ⟨made, hmade, h⟩ := Except.bind_eq_ok.mp h
    obtain ⟨hgrows, hwalk⟩ := foldlM_makeStep_grows hmade
    split at h
    · rename_i hdirectory
      cases h
      exact ⟨hgrows, fun _ => ⟨made.2, hwalk, hdirectory⟩⟩
    · cases h

/-- Where all but the last directory are there, at most that one is made. -/
theorem foldlM_makeStep_of_walk {steps : List PathStep}
    (hwalk : steps.foldlM disk.enter place = .ok other)
    (hdirectory : disk.at? place = some .directory)
    (hother : disk.at? other = some .directory ∨ disk.at? other = none) :
    ∃ later, steps.foldlM makeStep (disk, place) = .ok (later, other) ∧
      ∀ p, later.at? p = if p = other then some .directory else disk.at? p := by
  induction steps generalizing place with
  | nil =>
    cases hwalk
    refine ⟨disk, rfl, fun p => ?_⟩
    split
    · rename_i hp
      rw [hp, hdirectory]
    · rfl
  | cons step steps ih =>
    obtain ⟨next, hnext, hrest⟩ := Except.bind_eq_ok.mp hwalk
    obtain ⟨_, hvalid, hmove⟩ := enter_eq_ok.mp hnext
    -- a step to where something stands changes nothing
    have hstays : disk.at? next ≠ none → makeStep (disk, place) step = .ok (disk, next) := by
      intro hsome
      unfold makeStep
      rw [dif_pos hdirectory]
      cases step with
      | here | up => rw [hmove]
      | invalid => exact absurd rfl hvalid
      | name name =>
        rw [hmove] at hsome ⊢
        exact dif_neg hsome
    -- and nothing can be walked from anything else than a directory
    have hends : disk.at? next ≠ some .directory → steps = [] ∧ next = other := by
      intro hnot
      cases steps with
      | nil => exact ⟨rfl, Except.ok.inj hrest⟩
      | cons step' steps' =>
        obtain ⟨_, henter, _⟩ := Except.bind_eq_ok.mp hrest
        exact absurd (enter_eq_ok.mp henter).1 hnot
    by_cases hnextDirectory : disk.at? next = some .directory
    · obtain ⟨later, hlater, hat⟩ := ih hrest hnextDirectory
      have hsome : disk.at? next ≠ none := by
        rw [hnextDirectory]
        exact Option.some_ne_none _
      exact ⟨later, Except.bind_eq_ok.mpr ⟨_, hstays hsome, hlater⟩, hat⟩
    · obtain ⟨rfl, rfl⟩ := hends hnextDirectory
      have hfree := hother.resolve_left hnextDirectory
      cases step with
      | here =>
        rw [hmove, OsPath.move, hdirectory] at hfree
        cases hfree
      | invalid => exact absurd rfl hvalid
      | up =>
        -- above a directory there is a directory
        exfalso
        rw [hmove, OsPath.move] at hfree
        cases List.eq_nil_or_concat place with
        | inl hnil =>
          rw [hnil, List.dropLast_nil, FileTree.at?_nil] at hfree
          cases hfree
        | inr hconcat =>
          obtain ⟨parent, last, rfl⟩ := hconcat
          rw [List.concat_eq_append, List.dropLast_concat] at hfree
          rw [List.concat_eq_append, FileTree.at?_below_of_none hfree] at hdirectory
          cases hdirectory
      | name name =>
        rw [OsPath.move] at hmove
        subst hmove
        refine ⟨disk.put (place ++ [name]) .directory
          (by rw [List.dropLast_concat]; exact hdirectory) (hfree ▸ nofun), ?_,
          fun p => FileTree.at?_put⟩
        refine Except.bind_eq_ok.mpr ⟨_, ?_, rfl⟩
        unfold makeStep
        rw [dif_pos hdirectory]
        exact dif_pos hfree

/-- Where the directories above a path are there, at most the last one is made. -/
theorem createDirAll_of_walk (hne : path.bytes ≠ [])
    (hwalk : disk.walk workingDirectory path = .ok place)
    (hplace : disk.at? place = some .directory ∨ disk.at? place = none) :
    ∃ later, disk.createDirAll workingDirectory path = .ok later ∧
      ∀ p, later.at? p = if p = place then some .directory else disk.at? p := by
  have hstart : disk.at? (path.start workingDirectory) = some .directory := by
    unfold walk at hwalk
    cases hsteps : path.steps with
    | nil => exact absurd (List.map_eq_nil_iff.mp hsteps) (splitSeparators_ne_nil _)
    | cons step steps =>
      rw [hsteps] at hwalk
      obtain ⟨_, henter, _⟩ := Except.bind_eq_ok.mp hwalk
      exact (enter_eq_ok.mp henter).1
  obtain ⟨later, hlater, hat⟩ := foldlM_makeStep_of_walk hwalk hstart hplace
  refine ⟨later, ?_, hat⟩
  unfold createDirAll
  rw [if_neg hne]
  refine Except.bind_eq_ok.mpr ⟨_, hlater, if_pos ?_⟩
  rw [hat, if_pos rfl]

end Disk

end Tangle
