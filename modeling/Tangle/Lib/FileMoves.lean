import Tangle.Lib.FileTree

/-!
# Trees of files, cut and moved

The directory at a place is a tree of its own (`FileTree.below`). What stands at a place can be
taken out of a tree (`FileTree.without`), and a directory can be set there instead
(`FileTree.graft`). A directory that is moved is taken out where it stood and set where it goes
(`FileTree.move`), and is the same tree there (`FileTree.below_move`). Each operation is known by
what then stands at every place.
-/

namespace Tangle

namespace BTreeMap

variable {κ ν : Type} [Ord κ] [Std.TransOrd κ] [Std.LawfulEqOrd κ] [DecidableEq κ]

/-- The map of the answers to some keys. -/
def tabulate (keys : List κ) (answer : κ → Option ν) : BTreeMap κ ν :=
  keys.foldl (fun map key => (answer key).elim map (map.insert key)) ∅

/-- When every key with an answer is among those asked, the map answers all keys alike. -/
theorem getElem?_tabulate {keys : List κ} {answer : κ → Option ν} {key : κ}
    (h : answer key ≠ none → key ∈ keys) : (tabulate keys answer)[key]? = answer key := by
  have hfold : ∀ (keys : List κ) (map : BTreeMap κ ν),
      (keys.foldl (fun map key => (answer key).elim map (map.insert key)) map)[key]? =
        if key ∈ keys ∧ answer key ≠ none then answer key else map[key]? := by
    intro keys
    induction keys with
    | nil => intro map; simp
    | cons first rest ih =>
      intro map
      rw [List.foldl_cons, ih]
      by_cases hrest : key ∈ rest ∧ answer key ≠ none
      · rw [if_pos hrest, if_pos ⟨List.mem_cons_of_mem _ hrest.1, hrest.2⟩]
      · rw [if_neg hrest]
        by_cases hkey : first = key
        · subst hkey
          cases hanswer : answer first with
          | none => simp
          | some value => simp
        · have hnot : ¬ (key ∈ first :: rest ∧ answer key ≠ none) := by
            rintro ⟨hin, hsome⟩
            exact hrest ⟨(List.mem_cons.mp hin).resolve_left (Ne.symm hkey), hsome⟩
          rw [if_neg hnot]
          cases hanswer : answer first with
          | none => rfl
          | some value => exact getElem?_insert_ne hkey
  rw [tabulate, hfold]
  split
  · rfl
  · rename_i hnone
    rw [getElem?_empty]
    by_contra hsome
    exact hnone ⟨h (Ne.symm hsome), Ne.symm hsome⟩

end BTreeMap

namespace FileTree

variable {Name Content : Type} [LinearOrder Name] {tree : FileTree Name Content}
  {place other rest : List Name} {name : Name}

/-- The places where something stands. -/
def places (tree : FileTree Name Content) : List (List Name) :=
  tree.entries.toList.map Prod.fst

/-- The places of a tree are those with an entry. -/
theorem mem_places : place ∈ tree.places ↔ tree.entries[place]? ≠ none := by
  rw [places, List.mem_map, Option.ne_none_iff_exists']
  constructor
  · rintro ⟨⟨key, entry⟩, hmem, rfl⟩
    exact ⟨entry, BTreeMap.mem_toList.mp hmem⟩
  · rintro ⟨entry, hentry⟩
    exact ⟨(place, entry), BTreeMap.mem_toList.mpr hentry, rfl⟩

/-- The tree of what stands at the places where an answer is given. The answers are those of a tree:
nothing stands in what is no directory. -/
def ofAnswers (keys : List (List Name)) (answer : List Name → Option (Entry Content))
    (hkeys : ∀ place, place ≠ [] → answer place ≠ none → place ∈ keys)
    (hrooted : ∀ place name, answer (place ++ [name]) ≠ none → answer place = some .directory) :
    FileTree Name Content where
  entries := BTreeMap.tabulate keys fun place => if place = [] then none else answer place
  rooted := by
    have hanswer : ∀ place, (BTreeMap.tabulate keys fun place =>
        if place = [] then none else answer place)[place]? =
          if place = [] then none else answer place := by
      intro place
      refine BTreeMap.getElem?_tabulate ?_
      split
      · exact fun h => absurd rfl h
      · exact hkeys place ‹_›
    intro place name hchild
    rw [hanswer] at hchild ⊢
    by_cases hroot : place = []
    · exact .inl hroot
    · rw [if_neg (by simp)] at hchild
      rw [if_neg hroot]
      exact .inr (hrooted place name (Option.isSome_iff_ne_none.mp hchild))

/-- A tree made of answers has at each place the answer. -/
theorem at?_ofAnswers {keys : List (List Name)} {answer : List Name → Option (Entry Content)}
    {hkeys : ∀ place, place ≠ [] → answer place ≠ none → place ∈ keys}
    {hrooted : ∀ place name, answer (place ++ [name]) ≠ none → answer place = some .directory}
    (hroot : answer [] = some .directory) :
    (ofAnswers keys answer hkeys hrooted).at? place = answer place := by
  by_cases hplace : place = []
  · rw [hplace, at?_nil, hroot]
  · rw [at?_of_ne_nil hplace, ofAnswers, BTreeMap.getElem?_tabulate]
    · rw [if_neg hplace]
    · rw [if_neg hplace]
      exact hkeys place hplace

/-- A tree made of answers has nothing under the root's own place. -/
theorem entries_ofAnswers_nil {keys : List (List Name)}
    {answer : List Name → Option (Entry Content)}
    {hkeys : ∀ place, place ≠ [] → answer place ≠ none → place ∈ keys}
    {hrooted : ∀ place name, answer (place ++ [name]) ≠ none → answer place = some .directory} :
    (ofAnswers keys answer hkeys hrooted).entries[([] : List Name)]? = none := by
  rw [ofAnswers, BTreeMap.getElem?_tabulate (by simp), if_pos rfl]

/-- A tree that stands on its own: nothing is kept for the root. -/
structure Directory (Name Content : Type) [LinearOrder Name] where
  tree : FileTree Name Content
  unnamed : tree.entries[([] : List Name)]? = none

/-- Two directories with the same at every place are equal. -/
theorem Directory.ext {directory later : Directory Name Content}
    (h : ∀ place : List Name, directory.tree.at? place = later.tree.at? place) :
    directory = later := by
  obtain ⟨tree, hunnamed⟩ := directory
  obtain ⟨tree', hunnamed'⟩ := later
  have hentries : tree.entries = tree'.entries := by
    refine BTreeMap.ext fun place => ?_
    by_cases hplace : place = []
    · rw [hplace, hunnamed, hunnamed']
    · rw [← at?_of_ne_nil hplace, ← at?_of_ne_nil hplace, h]
  cases tree
  cases tree'
  cases hentries
  rfl

/-- A directory with nothing in it. -/
def Directory.empty : Directory Name Content :=
  ⟨⟨∅, fun place name h => by simp at h⟩, by simp⟩

/-- An empty directory has nothing at any place. -/
theorem Directory.at?_empty (h : place ≠ []) :
    (Directory.empty : Directory Name Content).tree.at? place = none := by
  rw [at?_of_ne_nil h, Directory.empty]
  simp

/-! ## The directory at a place -/

/-- What stands below a place. -/
def below (tree : FileTree Name Content) (place : List Name) : Directory Name Content where
  tree := ofAnswers (tree.places.map fun key => key.drop place.length)
    (fun rest => if rest = [] then some .directory else tree.at? (place ++ rest))
    (by
      intro rest hrest hanswer
      rw [if_neg hrest, at?_of_ne_nil (by simp [hrest])] at hanswer
      exact List.mem_map.mpr ⟨place ++ rest, mem_places.mpr hanswer, List.drop_left⟩)
    (by
      intro rest name hanswer
      rw [if_neg (by simp), ← List.append_assoc] at hanswer
      split
      · rfl
      · exact directory_of_child hanswer)
  unnamed := entries_ofAnswers_nil

/-- What a directory has is what the tree has below it. -/
theorem at?_below (h : rest ≠ []) :
    (tree.below place).tree.at? rest = tree.at? (place ++ rest) := by
  rw [below, at?_ofAnswers (if_pos rfl), if_neg h]

/-- The same at the directory's own place, when there is a directory. -/
theorem at?_below_of_directory (h : tree.at? place = some .directory) :
    (tree.below place).tree.at? rest = tree.at? (place ++ rest) := by
  by_cases hrest : rest = []
  · rw [hrest, at?_nil, List.append_nil, h]
  · exact at?_below hrest

/-- Two places with the same below them hold the same directory. -/
theorem below_eq {later : FileTree Name Content}
    (h : ∀ rest, rest ≠ [] → tree.at? (place ++ rest) = later.at? (other ++ rest)) :
    tree.below place = later.below other := by
  refine Directory.ext fun rest => ?_
  by_cases hrest : rest = []
  · rw [hrest, at?_nil, at?_nil]
  · rw [at?_below hrest, at?_below hrest, h rest hrest]

/-- A place with nothing below it has an empty directory below it. -/
theorem below_eq_empty (h : ∀ rest, rest ≠ [] → tree.at? (place ++ rest) = none) :
    tree.below place = .empty := by
  refine Directory.ext fun rest => ?_
  by_cases hrest : rest = []
  · rw [hrest, at?_nil, at?_nil]
  · rw [at?_below hrest, h rest hrest, Directory.at?_empty hrest]

/-! ## Taking out -/

/-- A tree without what stands at a place. -/
def without (tree : FileTree Name Content) (place : List Name) : FileTree Name Content :=
  ofAnswers tree.places
    (fun key => if place <+: key ∧ place ≠ [] then none else tree.at? key)
    (by
      intro key hkey hanswer
      split at hanswer
      · exact absurd rfl hanswer
      · exact mem_places.mpr (at?_of_ne_nil hkey ▸ hanswer))
    (by
      intro key name hanswer
      split at hanswer
      · exact absurd rfl hanswer
      · rename_i hout
        have habove : ¬ (place <+: key ∧ place ≠ []) := fun ⟨hkey, hne⟩ =>
          hout ⟨hkey.trans (List.prefix_append key [name]), hne⟩
        rw [if_neg habove]
        exact directory_of_child hanswer)

/-- What is left without a place: nothing at or below it, and everything else. -/
theorem at?_without (hplace : place ≠ []) :
    (tree.without place).at? other = if place <+: other then none else tree.at? other := by
  have hroot : (if place <+: [] ∧ place ≠ [] then none else tree.at? ([] : List Name)) =
      some .directory := by
    rw [if_neg (fun h => h.2 (List.prefix_nil.mp h.1)), at?_nil]
  rw [without, at?_ofAnswers hroot]
  simp only [hplace, ne_eq, not_false_eq_true, and_true]

/-! ## Setting a directory -/

/-- A tree with a directory set at a place in a directory. -/
def graft (tree : FileTree Name Content) (place : List Name) (sub : Directory Name Content)
    (hparent : tree.at? place.dropLast = some .directory) : FileTree Name Content :=
  ofAnswers (tree.places ++ place :: sub.tree.places.map fun key => place ++ key)
    (fun key => if place <+: key then sub.tree.at? (key.drop place.length) else tree.at? key)
    (by
      intro key hkey hanswer
      split at hanswer
      · rename_i hprefix
        obtain ⟨rest, rfl⟩ := hprefix
        rw [List.drop_left] at hanswer
        refine List.mem_append_right _ ?_
        by_cases hrest : rest = []
        · rw [hrest, List.append_nil]
          exact List.mem_cons_self
        · rw [at?_of_ne_nil hrest] at hanswer
          exact List.mem_cons_of_mem _ (List.mem_map_of_mem (mem_places.mpr hanswer))
      · exact List.mem_append_left _ (mem_places.mpr (at?_of_ne_nil hkey ▸ hanswer)))
    (by
      intro key name hanswer
      by_cases hkey : place <+: key
      · obtain ⟨rest, rfl⟩ := hkey
        rw [if_pos ((List.prefix_append place rest).trans (List.prefix_append _ _)),
          List.append_assoc, List.drop_left] at hanswer
        rw [if_pos (List.prefix_append place rest), List.drop_left]
        exact directory_of_child hanswer
      · rw [if_neg hkey]
        split at hanswer
        · rename_i hprefix
          have hplace := (List.prefix_concat_iff.mp hprefix).resolve_right hkey
          rw [hplace, List.dropLast_concat] at hparent
          exact hparent
        · exact directory_of_child hanswer)

variable {sub : Directory Name Content}

/-- What a tree has after a graft: the grafted directory below its place, and the tree elsewhere. -/
theorem at?_graft {hparent : tree.at? place.dropLast = some .directory} :
    (tree.graft place sub hparent).at? other =
      if place <+: other then sub.tree.at? (other.drop place.length) else tree.at? other := by
  refine at?_ofAnswers ?_
  split
  · rw [List.drop_nil, at?_nil]
  · exact at?_nil

/-- Below its place a graft shows the directory grafted. -/
theorem at?_graft_below {hparent : tree.at? place.dropLast = some .directory} :
    (tree.graft place sub hparent).at? (place ++ rest) = sub.tree.at? rest := by
  rw [at?_graft, if_pos (List.prefix_append place rest), List.drop_left]

/-- Elsewhere a graft shows the tree. -/
theorem at?_graft_of_not_prefix {hparent : tree.at? place.dropLast = some .directory}
    (h : ¬ place <+: other) : (tree.graft place sub hparent).at? other = tree.at? other := by
  rw [at?_graft, if_neg h]

/-- What was grafted is found below its place. -/
theorem below_graft {hparent : tree.at? place.dropLast = some .directory} :
    (tree.graft place sub hparent).below place = sub := by
  refine Directory.ext fun rest => ?_
  by_cases hrest : rest = []
  · rw [hrest, at?_nil, at?_nil]
  · rw [at?_below hrest, at?_graft_below]

/-! ## Moving -/

/-- A tree with the directory at one place moved to another in a directory that stays. -/
def move (tree : FileTree Name Content) (source target : List Name)
    (hparent : (tree.without source).at? target.dropLast = some .directory) :
    FileTree Name Content :=
  (tree.without source).graft target (tree.below source) hparent

/-- **What is moved is found below its target** as it was below its source. -/
theorem below_move {source target : List Name}
    {hparent : (tree.without source).at? target.dropLast = some .directory} :
    (tree.move source target hparent).below target = tree.below source := by
  refine below_eq fun rest hrest => ?_
  rw [move, at?_graft_below, at?_below hrest]

/-- The same, place by place. -/
theorem at?_move_below {source target : List Name}
    {hparent : (tree.without source).at? target.dropLast = some .directory}
    (hsource : tree.at? source = some .directory) :
    (tree.move source target hparent).at? (target ++ rest) = tree.at? (source ++ rest) := by
  rw [move, at?_graft_below, at?_below_of_directory hsource]

/-- What stands neither at the one place nor at the other stays. -/
theorem at?_move_of_not_prefix {source target : List Name}
    {hparent : (tree.without source).at? target.dropLast = some .directory}
    (hne : source ≠ []) (hsource : ¬ source <+: other) (htarget : ¬ target <+: other) :
    (tree.move source target hparent).at? other = tree.at? other := by
  rw [move, at?_graft_of_not_prefix htarget, at?_without hne, if_neg hsource]

end FileTree

end Tangle
