import Mathlib.Data.List.DropRight
import Mathlib.Data.List.Lex
import Tangle.Lib.Ordered

/-!
# Trees of files

A tree of files is a finite map from places to what stands there, where a place is the list of names
that lead to it from the root. What stands somewhere stands in a directory
(`FileTree.directory_of_below`), so nothing stands below a place that holds no directory. A tree
grows by putting something in a directory, and may grow by directories alone (`FileTree.Grows`),
which leaves its files as they are.
-/

namespace Tangle

/-- What stands at a place. -/
inductive Entry (Content : Type) where
  | file (content : Content)
  | directory
deriving DecidableEq

/-- What stands below the root. -/
structure FileTree (Name Content : Type) [LinearOrder Name] where
  entries : BTreeMap (List Name) (Entry Content)
  rooted : ∀ (place : List Name) (name : Name), (entries[place ++ [name]]?).isSome →
    place = [] ∨ entries[place]? = some .directory

namespace FileTree

variable {Name Content : Type} [LinearOrder Name] {tree later : FileTree Name Content}
  {place other : List Name} {name : Name} {entry : Entry Content}

/-- What stands at a place; at the root stands a directory. -/
def at? (tree : FileTree Name Content) (place : List Name) : Option (Entry Content) :=
  if place = [] then some .directory else tree.entries[place]?

/-- The root is a directory. -/
@[simp] theorem at?_nil : tree.at? [] = some .directory :=
  if_pos rfl

/-- What is at another place is its entry. -/
theorem at?_of_ne_nil (h : place ≠ []) : tree.at? place = tree.entries[place]? :=
  if_neg h

/-- The contents of a file. -/
def file? (tree : FileTree Name Content) (place : List Name) : Option Content :=
  match tree.at? place with
  | some (.file content) => some content
  | _ => none

/-- A file is found exactly where there is one. -/
theorem file?_eq_some {content : Content} :
    tree.file? place = some content ↔ tree.at? place = some (.file content) := by
  unfold file?
  cases tree.at? place with
  | none => simp
  | some entry => cases entry <;> simp

/-- Two places with one entry have one file. -/
theorem file?_congr (h : tree.at? place = later.at? other) :
    tree.file? place = later.file? other := by
  rw [file?, h, file?]

/-- What stands in a place stands in a directory. -/
theorem directory_of_child (h : tree.at? (place ++ [name]) ≠ none) :
    tree.at? place = some .directory := by
  rw [at?_of_ne_nil (by simp), Option.ne_none_iff_isSome] at h
  rcases tree.rooted place name h with rfl | hdirectory
  · exact at?_nil
  · by_cases hroot : place = []
    · exact hroot ▸ at?_nil
    · rw [at?_of_ne_nil hroot, hdirectory]

/-- Above whatever stands somewhere there are directories alone. -/
theorem directory_of_below {rest : List Name} (h : tree.at? (place ++ name :: rest) ≠ none) :
    tree.at? place = some .directory := by
  induction rest using List.reverseRecOn with
  | nil => exact directory_of_child h
  | append_singleton rest last ih =>
    rw [← List.cons_append, ← List.append_assoc] at h
    have hparent := directory_of_child h
    refine ih ?_
    rw [hparent]
    exact Option.some_ne_none _

/-- Nothing is below a place where nothing is. -/
theorem at?_below_of_none {rest : List Name} (h : tree.at? place = none) :
    tree.at? (place ++ rest) = none := by
  cases rest with
  | nil => rw [List.append_nil, h]
  | cons name rest =>
    by_contra hbelow
    rw [directory_of_below hbelow] at h
    cases h

/-- No file is where nothing is. -/
theorem file?_of_none (h : tree.at? place = none) : tree.file? place = none := by
  rw [file?, h]

/-- Below a file there is nothing. -/
theorem file?_below_of_file {rest : List Name} {content : Content}
    (h : tree.at? place = some (.file content)) : tree.file? (place ++ name :: rest) = none := by
  refine file?_of_none ?_
  by_contra hbelow
  rw [directory_of_below hbelow] at h
  cases h

/-! ## Putting -/

/-- A tree with an entry at a place in a directory, where no directory stands. -/
def put (tree : FileTree Name Content) (place : List Name) (entry : Entry Content)
    (hparent : tree.at? place.dropLast = some .directory)
    (hfree : tree.at? place ≠ some .directory) : FileTree Name Content where
  entries := tree.entries.insert place entry
  rooted := by
    intro parent name hchild
    rw [BTreeMap.getElem?_insert] at hchild ⊢
    by_cases hplace : place = parent ++ [name]
    · -- the new entry stands in a directory
      rw [hplace, List.dropLast_concat] at hparent
      by_cases hroot : parent = []
      · exact .inl hroot
      · rw [at?_of_ne_nil hroot] at hparent
        have hne : ¬ place = parent := by
          rw [hplace]
          exact fun heq => List.cons_ne_nil _ _ (List.append_right_eq_self.mp heq)
        rw [if_neg hne]
        exact .inr hparent
    · rw [if_neg hplace] at hchild
      rcases tree.rooted parent name hchild with hroot | hdirectory
      · exact .inl hroot
      · by_cases hroot : parent = []
        · exact .inl hroot
        · have hne : ¬ place = parent := by
            rintro rfl
            exact hfree ((at?_of_ne_nil hroot).trans hdirectory)
          rw [if_neg hne]
          exact .inr hdirectory

/-- An entry that is put is at its place, and the others are where they were. -/
theorem at?_put {hparent : tree.at? place.dropLast = some .directory}
    {hfree : tree.at? place ≠ some .directory} :
    (tree.put place entry hparent hfree).at? other =
      if other = place then some entry else tree.at? other := by
  have hroot : place ≠ [] := by
    rintro rfl
    exact hfree at?_nil
  by_cases hother : other = []
  · rw [hother, at?_nil, at?_nil, if_neg (Ne.symm hroot)]
  · rw [at?_of_ne_nil hother, at?_of_ne_nil hother, put, BTreeMap.getElem?_insert]
    simp only [eq_comm]

/-! ## Listing -/

/-- The names in a directory, in order. -/
def children (tree : FileTree Name Content) (place : List Name) : List Name :=
  tree.entries.toList.filterMap fun (key, _) =>
    if key.dropLast = place then key.getLast? else none

/-- The children of a directory are the names of the places in it. -/
theorem mem_children : name ∈ tree.children place ↔ tree.at? (place ++ [name]) ≠ none := by
  have hne : place ++ [name] ≠ [] := by simp
  rw [at?_of_ne_nil hne, children, List.mem_filterMap]
  constructor
  · rintro ⟨⟨key, entry⟩, hmem, hkey⟩
    have hkey : key.dropLast = place ∧ key.getLast? = some name := by
      dsimp only at hkey
      split at hkey
      · exact ⟨‹_›, hkey⟩
      · cases hkey
    have hspelled : place ++ [name] = key := by
      rw [← hkey.1]
      exact List.dropLast_append_getLast? _ hkey.2
    rw [hspelled, BTreeMap.mem_toList.mp hmem]
    exact Option.some_ne_none _
  · intro h
    obtain ⟨entry, hentry⟩ := Option.ne_none_iff_exists'.mp h
    refine ⟨(place ++ [name], entry), BTreeMap.mem_toList.mpr hentry, ?_⟩
    dsimp only
    rw [List.dropLast_concat, if_pos rfl, List.getLast?_concat]

/-- The children of a directory are named once each. -/
theorem nodup_children : (tree.children place).Nodup := by
  unfold children
  have hkeys := BTreeMap.nodup_keys_toList (m := tree.entries)
  rw [List.Nodup, List.pairwise_map] at hkeys
  refine List.Pairwise.filterMap _ ?_ hkeys
  rintro ⟨key, _⟩ ⟨key', _⟩ hne name hname name' hname'
  dsimp only at hname hname'
  split at hname
  · split at hname'
    · rintro rfl
      refine hne ?_
      show key = key'
      rw [← List.dropLast_append_getLast? _ hname, ← List.dropLast_append_getLast? _ hname']
      rw [‹key.dropLast = place›, ‹key'.dropLast = place›]
    · cases hname'
  · cases hname

/-! ## Growing by directories -/

/-- The later tree has what the tree has, and directories besides. -/
structure Grows (tree later : FileTree Name Content) : Prop where
  keeps : ∀ place entry, tree.at? place = some entry → later.at? place = some entry
  adds : ∀ place entry, later.at? place = some entry →
    tree.at? place = some entry ∨ entry = .directory

/-- A tree has grown from itself. -/
theorem Grows.refl (tree : FileTree Name Content) : tree.Grows tree :=
  ⟨fun _ _ h => h, fun _ _ h => .inl h⟩

/-- Growth goes on. -/
theorem Grows.trans {last : FileTree Name Content} (h : tree.Grows later) (h' : later.Grows last) :
    tree.Grows last where
  keeps place entry hentry := h'.keeps place entry (h.keeps place entry hentry)
  adds place entry hentry := by
    rcases h'.adds place entry hentry with hlater | hdirectory
    · exact h.adds place entry hlater
    · exact .inr hdirectory

/-- Growth keeps every file. -/
theorem Grows.file?_eq (h : tree.Grows later) : later.file? place = tree.file? place := by
  refine Option.ext fun content => ?_
  rw [file?_eq_some, file?_eq_some]
  constructor
  · intro hfile
    rcases h.adds _ _ hfile with hfile | hdirectory
    · exact hfile
    · cases hdirectory
  · exact h.keeps _ _

/-- A new directory is growth. -/
theorem grows_put (hparent : tree.at? place.dropLast = some .directory)
    (hfree : tree.at? place = none) :
    tree.Grows (tree.put place .directory hparent (hfree ▸ nofun)) where
  keeps other entry hentry := by
    rw [at?_put]
    split
    · rename_i heq
      rw [heq, hfree] at hentry
      cases hentry
    · exact hentry
  adds other entry hentry := by
    rw [at?_put] at hentry
    split at hentry
    · exact .inr (Option.some.inj hentry).symm
    · exact .inl hentry

end FileTree

end Tangle
