import Mathlib.Data.List.DropRight
import Tangle.Lib.Utf8Lossy
import Tangle.Protocol.Text

/-!
# Paths

A path is absolute or relative, and a list of components. Resolved without looking at the file
system, it leads from a working directory to a place in the tree of directories: a parent component
goes up one directory, and stays at the root. A relative path that goes up further than it has come
down leaves the working directory (`PathBuf.ups`); what it goes down after that are its names
(`PathBuf.names`).

The key of a path is spelled from its names alone, so it says nothing of where a relative path
starts (`canonicalPathKey_eq_iff`).
-/

namespace Tangle

/-! ## Names -/

/-- The name of a file or a directory, as its bytes. -/
structure FileName where
  bytes : List UInt8
  nonempty : bytes ≠ []
  noSeparator : ∀ byte ∈ bytes, byte.toNat ≠ 0x2F
deriving DecidableEq

/-- `OsStr::to_string_lossy`. -/
def FileName.toStringLossy (name : FileName) : Text :=
  fromUtf8Lossy name.bytes

/-- `Component`, of a path of Unix. -/
inductive Component where
  | rootDir | curDir | parentDir
  | normal (name : FileName)
deriving DecidableEq

/-- A path, with the root component apart. -/
structure PathBuf where
  absolute : Bool
  rest : List Component
  noRoot : .rootDir ∉ rest
deriving DecidableEq

/-- `Path::components`. -/
def PathBuf.components (path : PathBuf) : List Component :=
  if path.absolute then .rootDir :: path.rest else path.rest

/-! ## Keys -/

/-- A path without `.` and `..`. -/
structure NormalizedPath where
  absolute : Bool
  names : List FileName
deriving DecidableEq

namespace NormalizedPath

/-- `PathBuf::new`: no component yet. -/
def new : NormalizedPath :=
  ⟨false, []⟩

/-- `PathBuf::pop`, which leaves the root and the empty path alone. -/
def pop (path : NormalizedPath) : NormalizedPath :=
  { path with names := path.names.dropLast }

/-- `PathBuf::push` of a name. -/
def push (path : NormalizedPath) (name : FileName) : NormalizedPath :=
  { path with names := path.names ++ [name] }

/-- `PathBuf::push` of the root, which replaces the path. -/
def pushRoot (_ : NormalizedPath) : NormalizedPath :=
  ⟨true, []⟩

/-- `to_string_lossy`: the names with slashes between them, behind the root's where there is one. -/
def toStringLossy (path : NormalizedPath) : Text :=
  (if path.absolute then ['/'] else []) ++
    ['/'].intercalate (path.names.map FileName.toStringLossy)

end NormalizedPath

/-- One component of a path that is brought into normal form. -/
def normalizeComponent (normalized : NormalizedPath) : Component → NormalizedPath
  | .curDir => normalized
  | .parentDir => normalized.pop
  | .normal name => normalized.push name
  | .rootDir => normalized.pushRoot

/-- `normalize_path`: component by component. -/
def normalizePath (path : PathBuf) : NormalizedPath :=
  path.components.foldl normalizeComponent .new

/-- `canonical_path_key`. -/
def canonicalPathKey (path : PathBuf) : Text :=
  (normalizePath path).toStringLossy

/-! ## Places -/

/-- One component of a path, from a directory on. -/
def resolveComponent (directory : List FileName) : Component → List FileName
  | .rootDir => []
  | .curDir => directory
  | .parentDir => directory.dropLast
  | .normal name => directory ++ [name]

/-- The place that a path leads to from a working directory. -/
def PathBuf.resolve (path : PathBuf) (workingDirectory : List FileName) : List FileName :=
  path.components.foldl resolveComponent workingDirectory

/-- One component of a relative path: how far the path has gone up, and where it has gone from
there. -/
def relativeComponent : Nat × List FileName → Component → Nat × List FileName
  | _, .rootDir => (0, [])
  | place, .curDir => place
  | (ups, []), .parentDir => (ups + 1, [])
  | (ups, name :: names), .parentDir => (ups, (name :: names).dropLast)
  | (ups, names), .normal name => (ups, names ++ [name])

namespace PathBuf

/-- How many directories above the working directory the path starts. -/
def ups (path : PathBuf) : Nat :=
  if path.absolute then 0 else (path.rest.foldl relativeComponent (0, [])).1

/-- What is left of the path when `.` and `..` are taken out. -/
def names (path : PathBuf) : List FileName :=
  (path.rest.foldl relativeComponent (0, [])).2

variable {path other : PathBuf} {workingDirectory : List FileName}

/-- From a working directory a relative path climbs as often as it says and then goes down its
names. -/
theorem foldl_resolveComponent {rest : List Component} (hroot : .rootDir ∉ rest) (ups : Nat)
    (names : List FileName) :
    rest.foldl resolveComponent (workingDirectory.rdrop ups ++ names) =
      workingDirectory.rdrop (rest.foldl relativeComponent (ups, names)).1 ++
        (rest.foldl relativeComponent (ups, names)).2 := by
  induction rest generalizing ups names with
  | nil => rfl
  | cons component rest ih =>
    obtain ⟨hne, hrest⟩ := not_or.mp (mt List.mem_cons.mpr hroot)
    rw [List.foldl_cons, List.foldl_cons]
    cases component with
    | rootDir => exact absurd rfl hne
    | curDir => exact ih hrest ups names
    | normal name =>
      rw [resolveComponent, List.append_assoc]
      exact ih hrest ups (names ++ [name])
    | parentDir =>
      cases names with
      | nil =>
        have hup : (workingDirectory.rdrop ups).dropLast = workingDirectory.rdrop (ups + 1) := by
          rw [List.rdrop, List.rdrop, List.dropLast_eq_take, List.take_take, List.length_take]
          congr 1
          omega
        have hrest := ih hrest (ups + 1) []
        rw [List.append_nil] at hrest
        rw [resolveComponent, List.append_nil, hup]
        exact hrest
      | cons name names =>
        rw [resolveComponent, List.dropLast_append_of_ne_nil (List.cons_ne_nil _ _)]
        exact ih hrest ups _

/-- Where a relative path leads: up from the working directory, and down its names. -/
theorem resolve_eq (h : path.absolute = false) :
    path.resolve workingDirectory = workingDirectory.rdrop path.ups ++ path.names := by
  have hfold := @foldl_resolveComponent workingDirectory path.rest path.noRoot 0 []
  rw [List.rdrop_zero, List.append_nil] at hfold
  unfold resolve components ups names
  rw [h, if_neg Bool.false_ne_true, if_neg Bool.false_ne_true]
  exact hfold

/-- An absolute path leads down its names from the root. -/
theorem resolve_of_absolute (h : path.absolute = true) :
    path.resolve workingDirectory = path.names := by
  have hfold := @foldl_resolveComponent [] path.rest path.noRoot 0 []
  rw [List.rdrop_nil, List.rdrop_nil] at hfold
  unfold resolve components names
  rw [h, if_pos rfl]
  exact hfold

/-- Normalizing a relative path keeps its names and forgets how often it climbs. -/
theorem foldl_normalizeComponent {rest : List Component} (hroot : .rootDir ∉ rest) (absolute : Bool)
    (ups : Nat) (names : List FileName) :
    rest.foldl normalizeComponent ⟨absolute, names⟩ =
      ⟨absolute, (rest.foldl relativeComponent (ups, names)).2⟩ := by
  induction rest generalizing ups names with
  | nil => rfl
  | cons component rest ih =>
    obtain ⟨hne, hrest⟩ := not_or.mp (mt List.mem_cons.mpr hroot)
    rw [List.foldl_cons, List.foldl_cons]
    cases component with
    | rootDir => exact absurd rfl hne
    | curDir => exact ih hrest ups names
    | normal name => exact ih hrest ups _
    | parentDir =>
      cases names with
      | nil => exact ih hrest (ups + 1) []
      | cons name names => exact ih hrest ups _

/-- A path's normal form is whether it is absolute, and the names that are left. -/
theorem normalizePath_eq : normalizePath path = ⟨path.absolute, path.names⟩ := by
  unfold normalizePath components names
  cases hpath : path.absolute with
  | true => exact foldl_normalizeComponent path.noRoot true 0 []
  | false => exact foldl_normalizeComponent path.noRoot false 0 []

end PathBuf

/-! ## Spellings -/

/-- The separator is no character of a name. -/
theorem FileName.separator_not_mem (name : FileName) : '/' ∉ name.toStringLossy :=
  not_mem_fromUtf8Lossy (by decide) (by decide) name.noSeparator

/-- A text without the separator is what stands before the first one. -/
theorem append_separator_inj {a b : Text} {x y : Text} (ha : '/' ∉ a) (hb : '/' ∉ b)
    (hx : x = [] ∨ x.head? = some '/') (hy : y = [] ∨ y.head? = some '/') (h : a ++ x = b ++ y) :
    a = b ∧ x = y := by
  -- what one is longer by begins with the separator
  have hshort : ∀ {a b x y : Text} {more : Text}, '/' ∉ b → (x = [] ∨ x.head? = some '/') →
      b = a ++ more → x = more ++ y → more = [] := by
    intro a b x y more hb hx hmore hxy
    cases more with
    | nil => rfl
    | cons c more =>
      rcases hx with rfl | hx
      · cases hxy
      · rw [hxy] at hx
        cases hx
        refine absurd ?_ hb
        rw [hmore]
        exact List.mem_append_right _ List.mem_cons_self
  rcases List.append_eq_append_iff.mp h with ⟨more, hmore, hxy⟩ | ⟨more, hmore, hxy⟩
  · cases hshort hb hx hmore hxy
    rw [List.append_nil] at hmore
    exact ⟨hmore.symm, hxy⟩
  · cases hshort ha hy hmore hxy
    rw [List.append_nil] at hmore
    exact ⟨hmore, hxy.symm⟩

/-- The spelling of a list of names tells the names apart, as they are spelled. -/
theorem intercalate_separator_inj {xs ys : List Text} (hxs : ∀ x ∈ xs, x ≠ [] ∧ '/' ∉ x)
    (hys : ∀ y ∈ ys, y ≠ [] ∧ '/' ∉ y) (h : ['/'].intercalate xs = ['/'].intercalate ys) :
    xs = ys := by
  have hcons : ∀ (z : Text) (zs : List Text), ∃ tail, ['/'].intercalate (z :: zs) = z ++ tail ∧
      (tail = [] ∨ tail.head? = some '/') ∧
      tail = if zs = [] then [] else '/' :: ['/'].intercalate zs := by
    intro z zs
    cases zs with
    | nil => exact ⟨[], by simp, .inl rfl, rfl⟩
    | cons next zs => exact ⟨_, by rw [List.intercalate_cons_cons]; simp, .inr rfl, rfl⟩
  induction xs generalizing ys with
  | nil =>
    cases ys with
    | nil => rfl
    | cons y ys =>
      obtain ⟨tail, htail, _⟩ := hcons y ys
      rw [htail] at h
      exact absurd (List.append_eq_nil_iff.mp h.symm).1 (hys y List.mem_cons_self).1
  | cons x xs ih =>
    obtain ⟨tail, htail, hhead, hxs'⟩ := hcons x xs
    cases ys with
    | nil =>
      rw [htail] at h
      exact absurd (List.append_eq_nil_iff.mp h).1 (hxs x List.mem_cons_self).1
    | cons y ys =>
      obtain ⟨tail', htail', hhead', hys'⟩ := hcons y ys
      rw [htail, htail'] at h
      obtain ⟨rfl, htails⟩ := append_separator_inj (hxs x List.mem_cons_self).2
        (hys y List.mem_cons_self).2 hhead hhead' h
      rw [hxs', hys'] at htails
      have hrest : ['/'].intercalate xs = ['/'].intercalate ys := by
        by_cases hx : xs = [] <;> by_cases hy : ys = []
        · rw [hx, hy]
        · rw [if_pos hx, if_neg hy] at htails
          cases htails
        · rw [if_neg hx, if_pos hy] at htails
          cases htails
        · rw [if_neg hx, if_neg hy] at htails
          exact (List.cons.inj htails).2
      rw [ih (fun z hz => hxs z (List.mem_cons_of_mem _ hz))
        (fun z hz => hys z (List.mem_cons_of_mem _ hz)) hrest]

/-- A key says whether the path is absolute, and spells its names. -/
theorem canonicalPathKey_eq_iff {path other : PathBuf} :
    canonicalPathKey path = canonicalPathKey other ↔ path.absolute = other.absolute ∧
      path.names.map FileName.toStringLossy = other.names.map FileName.toStringLossy := by
  unfold canonicalPathKey
  rw [PathBuf.normalizePath_eq, PathBuf.normalizePath_eq]
  unfold NormalizedPath.toStringLossy
  dsimp only
  have hnames : ∀ names : List FileName, ∀ name ∈ names.map FileName.toStringLossy,
      name ≠ [] ∧ '/' ∉ name := by
    intro names name hname
    obtain ⟨file, _, rfl⟩ := List.mem_map.mp hname
    exact ⟨fromUtf8Lossy_ne_nil file.nonempty, file.separator_not_mem⟩
  have hstart : ∀ names : List FileName,
      (['/'].intercalate (names.map FileName.toStringLossy)).head? ≠ some '/' := by
    intro names hhead
    cases names with
    | nil => cases hhead
    | cons name names =>
      have hname := hnames (name :: names) name.toStringLossy
        (List.mem_map_of_mem List.mem_cons_self)
      cases htext : name.toStringLossy with
      | nil => exact hname.1 htext
      | cons c text =>
        have hfirst : c = '/' := by
          cases names with
          | nil =>
            rw [List.map_singleton, List.intercalate_singleton, htext] at hhead
            exact Option.some.inj hhead
          | cons next names =>
            rw [List.map_cons, List.map_cons, List.intercalate_cons_cons, htext] at hhead
            exact Option.some.inj hhead
        rw [htext, hfirst] at hname
        exact hname.2 List.mem_cons_self
  refine ⟨fun h => ?_, fun ⟨habsolute, hspelled⟩ => by rw [habsolute, hspelled]⟩
  cases hp : path.absolute <;> cases ho : other.absolute <;> rw [hp, ho] at h
  · exact ⟨rfl, intercalate_separator_inj (hnames _) (hnames _) h⟩
  · exact absurd (congrArg List.head? h) (hstart _)
  · exact absurd (congrArg List.head? h).symm (hstart _)
  · exact ⟨rfl, intercalate_separator_inj (hnames _) (hnames _) (List.cons.inj h).2⟩

end Tangle
