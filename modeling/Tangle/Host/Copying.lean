import Tangle.Host.Backup

/-!
# Copying directories

A directory is copied to a place apart from it below which there are no files: then the files below
the directory are the files below that place, and the rest of the disk is as it was
(`BackupHost.copyDirectoryWith_copied`). What is left to do while the names of the directory are
copied one after the other is `Copying`. A directory is never copied to a place below it: there
would be always more to copy (`BackupHost.copyDirectoryWith_below`).
-/

namespace Tangle

/-- The later disk has below one place the files of the disk below another, and is the same
elsewhere. -/
structure Copied (disk later : Disk) (source target : Place) : Prop where
  below : ∀ rest, later.file? (target ++ rest) = disk.file? (source ++ rest)
  adds : ∀ rest, later.at? (target ++ rest) ≠ none →
    disk.at? (source ++ rest) ≠ none ∨ disk.at? (target ++ rest) ≠ none
  outside : ∀ place, ¬ target <+: place → later.at? place = disk.at? place

/-- Neither place is below the other. -/
def Place.Apart (source target : Place) : Prop :=
  ¬ source <+: target ∧ ¬ target <+: source

namespace Place.Apart

variable {source target : Place}

/-- Two places that are apart are so either way round. -/
theorem symm (h : Apart source target) : Apart target source :=
  ⟨h.2, h.1⟩

/-- What is below one of two places apart is not below the other. -/
theorem not_prefix (h : Apart source target) (rest : Place) : ¬ target <+: source ++ rest := by
  intro hbelow
  rcases List.prefix_or_prefix_of_prefix hbelow (List.prefix_append source rest) with h' | h'
  · exact h.2 h'
  · exact h.1 h'

/-- A child of one of two places apart is apart from the same child of the other. -/
theorem child (h : Apart source target) (name : EntryName) :
    Apart (source ++ [name]) (target ++ [name]) := by
  have hchild : ∀ {a b : Place}, Apart a b → ¬ a ++ [name] <+: b ++ [name] := by
    intro a b hab hprefix
    exact hab.symm.not_prefix [name] ((List.prefix_append a [name]).trans hprefix)
  exact ⟨hchild h, hchild h.symm⟩

end Place.Apart

/-- The directories of the disk stay on the later one. -/
def KeepsDirectories (disk later : Disk) : Prop :=
  ∀ place, disk.at? place = some .directory → later.at? place = some .directory

/-- The files of the disk stay files on the later one, whatever is written into them. -/
def KeepsFiles (disk later : Disk) : Prop :=
  ∀ place, disk.file? place ≠ none → later.file? place ≠ none

/-- Names of a directory are still to be copied: below the target are the files that the directory
has under the other names. -/
structure Copying (disk : Disk) (source target : Place) (names : List EntryName) (now : Disk) :
    Prop where
  keeps : KeepsDirectories disk now
  directory : now.at? target = some .directory
  below : ∀ name rest, now.file? (target ++ name :: rest) =
    if name ∈ names then none else disk.file? (source ++ name :: rest)
  adds : ∀ rest, now.at? (target ++ rest) ≠ none →
    disk.at? (source ++ rest) ≠ none ∨ disk.at? (target ++ rest) ≠ none
  outside : ∀ place, ¬ target <+: place → now.at? place = disk.at? place

/-- A prefix that ends in a name leads nowhere else. -/
theorem not_prefix_of_ne {place rest : Place} {name other : EntryName} (h : name ≠ other) :
    ¬ place ++ [name] <+: place ++ other :: rest := by
  rw [List.prefix_append_right_inj, List.cons_prefix_cons]
  exact fun ⟨heq, _⟩ => h heq

/-- No directory is below its own entry. -/
theorem not_prefix_self {place : Place} {name : EntryName} : ¬ place ++ [name] <+: place := by
  intro h
  have hlength := h.length_le
  rw [List.length_append, List.length_singleton] at hlength
  omega

section

variable {disk now next : Disk} {S T : Place} {name : EntryName} {names : List EntryName}

namespace Copying

/-- When no entry is left to copy, the whole directory is copied. -/
theorem copied (h : Copying disk S T [] now) (hsource : disk.at? S = some .directory) :
    Copied disk now S T where
  below rest := by
    cases rest with
    | nil =>
      rw [List.append_nil, List.append_nil]
      exact FileTree.file?_congr (h.directory.trans hsource.symm)
    | cons name rest => rw [h.below, if_neg List.not_mem_nil]
  adds := h.adds
  outside := h.outside

/-- What a name leads to in the directory is there still. -/
theorem source_eq (h : Copying disk S T names now) (hapart : S.Apart T) (rest : Place) :
    now.at? (S ++ rest) = disk.at? (S ++ rest) :=
  h.outside _ (hapart.not_prefix rest)

/-- What copying one name leaves. -/
structure NameCopied (disk now next : Disk) (source target : Place) (name : EntryName) : Prop where
  keeps : KeepsDirectories now next
  below : ∀ rest, next.file? (target ++ [name] ++ rest) = disk.file? (source ++ [name] ++ rest)
  adds : ∀ rest, next.at? (target ++ [name] ++ rest) ≠ none →
    disk.at? (source ++ [name] ++ rest) ≠ none ∨ now.at? (target ++ [name] ++ rest) ≠ none
  outside : ∀ place, ¬ target ++ [name] <+: place → next.at? place = now.at? place

/-- Once everything under a name is copied there is one name less. -/
theorem step (h : Copying disk S T (name :: names) now) (hnodup : name ∉ names)
    (hname : NameCopied disk now next S T name) : Copying disk S T names next where
  keeps place hplace := hname.keeps place (h.keeps place hplace)
  directory := by
    rw [hname.outside T not_prefix_self]
    exact h.directory
  below other rest := by
    by_cases hother : name = other
    · subst hother
      rw [if_neg hnodup]
      have hrest := hname.below rest
      rw [List.append_assoc, List.append_assoc] at hrest
      exact hrest
    · rw [FileTree.file?_congr (hname.outside _ (not_prefix_of_ne hother)), h.below]
      simp [Ne.symm hother]
  adds rest hrest := by
    by_cases hbelow : T ++ [name] <+: T ++ rest
    · obtain ⟨more, hmore⟩ := hbelow
      rw [List.append_assoc, List.append_cancel_left_eq] at hmore
      subst hmore
      rw [← List.append_assoc] at hrest
      rcases hname.adds more hrest with hsource | hnow
      · rw [List.append_assoc] at hsource
        exact .inl hsource
      · rw [List.append_assoc] at hnow
        exact h.adds _ hnow
    · rw [hname.outside _ hbelow] at hrest
      exact h.adds rest hrest
  outside place hplace := by
    rw [hname.outside place fun hprefix => hplace ((List.prefix_append T [name]).trans hprefix)]
    exact h.outside place hplace

end Copying

end

namespace BackupHost

variable {host : BackupHost} {source target : OsPath} {disk later : Disk} {S T : Place}
  {name : EntryName} {copy : OsPath → OsPath → Disk → Except Text Disk}

/-! ## What a copy does -/

/-- **What the copy of one entry does**: a directory is copied in turn, a file is written, and
nothing else succeeds. -/
theorem copyEntry_cases (h : host.copyEntry copy source target disk name = .ok later) :
    (disk.metadata host.workingDirectory (source.join (.ofName name)) = .ok .directory ∧
      copy (source.join (.ofName name)) (target.join (.ofName name)) disk = .ok later) ∨
    ∃ contents,
      disk.metadata host.workingDirectory (source.join (.ofName name)) = .ok (.file contents) ∧
      disk.write host.workingDirectory (target.join (.ofName name)) contents = .ok later := by
  unfold copyEntry at h
  obtain ⟨entry, hentry, h⟩ := Except.bind_eq_ok.mp h
  rw [Except.mapError_eq_ok] at hentry
  cases entry with
  | directory => exact .inl ⟨hentry, h⟩
  | file contents => exact .inr ⟨contents, hentry, Except.mapError_eq_ok.mp h⟩

/-- **What the copy of a directory does**: the target is made, and the entries are copied one by
one. -/
theorem copyDirectoryWith_cases {depth : Nat}
    (h : host.copyDirectoryWith (depth + 1) source target disk = .ok later) :
    ∃ S made, disk.walk host.workingDirectory source = .ok S ∧ disk.at? S = some .directory ∧
      disk.createDirAll host.workingDirectory target = .ok made ∧
      (made.children S).foldlM (host.copyEntry (host.copyDirectoryWith depth) source target) made =
        .ok later := by
  unfold copyDirectoryWith at h
  obtain ⟨_, hdir, h⟩ := Except.bind_eq_ok.mp h
  rw [refuseIf_eq_ok, Bool.not_eq_false] at hdir
  obtain ⟨S, hfind, hdirectory⟩ := Disk.isDir_iff.mp hdir
  obtain ⟨made, hmade, h⟩ := Except.bind_eq_ok.mp h
  rw [Except.mapError_eq_ok] at hmade
  obtain ⟨names, hnames, h⟩ := Except.bind_eq_ok.mp h
  rw [Except.mapError_eq_ok] at hnames
  have hgrows := (Disk.createDirAll_grows hmade).1
  have hwalk := (Disk.find_eq_ok.mp hfind).2
  have hfind' : made.find host.workingDirectory source = .ok S :=
    Disk.find_eq_ok.mpr ⟨(Disk.find_eq_ok.mp hfind).1,
      Disk.walk_mono (fun place => hgrows.keeps place _) hwalk⟩
  rw [Disk.readDir_of_find hfind' (hgrows.keeps _ _ hdirectory)] at hnames
  cases hnames
  exact ⟨S, made, hwalk, hdirectory, hmade, h⟩

/-! ## Directories and files stay -/

/-- The copy of an entry makes a directory or writes a file, and neither takes a directory away. -/
theorem copyEntry_keepsDirectories
    (hcopy : ∀ {source target disk later}, copy source target disk = .ok later →
      KeepsDirectories disk later)
    (h : host.copyEntry copy source target disk name = .ok later) :
      KeepsDirectories disk later := by
  rcases copyEntry_cases h with ⟨_, h⟩ | ⟨contents, _, h⟩
  · exact hcopy h
  · intro place hplace
    obtain ⟨written, _, hfree, hat⟩ := Disk.write_eq_ok h
    rw [hat, if_neg]
    · exact hplace
    · rintro rfl
      exact hfree hplace

/-- A copy of a directory takes no directory away. -/
theorem copyDirectoryWith_keepsDirectories {depth : Nat}
    (h : host.copyDirectoryWith depth source target disk = .ok later) :
    KeepsDirectories disk later := by
  induction depth generalizing source target disk later with
  | zero => cases h
  | succ depth ih =>
    obtain ⟨S, made, _, _, hmade, hnames⟩ := copyDirectoryWith_cases h
    refine Except.foldlM_invariant (KeepsDirectories disk) ?_ ?_ hnames
    · intro now name next _ hnow hnext place hplace
      exact copyEntry_keepsDirectories (fun h => ih h) hnext place (hnow place hplace)
    · exact fun place => (Disk.createDirAll_grows hmade).1.keeps place _

/-- The copy of an entry takes no file away: what it writes is a file, and directories are made only
where nothing is. -/
theorem copyEntry_keepsFiles
    (hcopy : ∀ {source target disk later}, copy source target disk = .ok later →
      KeepsFiles disk later)
    (h : host.copyEntry copy source target disk name = .ok later) : KeepsFiles disk later := by
  rcases copyEntry_cases h with ⟨_, h⟩ | ⟨contents, _, h⟩
  · exact hcopy h
  · intro place hplace
    obtain ⟨written, _, _, hat⟩ := Disk.write_eq_ok h
    by_cases heq : place = written
    · have hwritten := hat place
      rw [if_pos heq] at hwritten
      rw [FileTree.file?_eq_some.mpr hwritten]
      exact Option.some_ne_none _
    · have hother := hat place
      rw [if_neg heq] at hother
      rw [FileTree.file?_congr hother]
      exact hplace

/-- A copy of a directory takes no file away, wherever it copies to. -/
theorem copyDirectoryWith_keepsFiles {depth : Nat}
    (h : host.copyDirectoryWith depth source target disk = .ok later) : KeepsFiles disk later := by
  induction depth generalizing source target disk later with
  | zero => cases h
  | succ depth ih =>
    obtain ⟨S, made, _, _, hmade, hnames⟩ := copyDirectoryWith_cases h
    refine Except.foldlM_invariant (KeepsFiles disk) ?_ ?_ hnames
    · intro now name next _ hnow hnext place hplace
      exact copyEntry_keepsFiles (fun h => ih h) hnext place (hnow place hplace)
    · intro place hplace
      rw [(Disk.createDirAll_grows hmade).1.file?_eq]
      exact hplace

/-! ## No copy to below -/

/-- A directory is not copied to a place below it. -/
theorem copyDirectoryWith_below {depth : Nat}
    (hsource : disk.walk host.workingDirectory source = .ok S)
    (htarget : disk.walk host.workingDirectory target = .ok T) (hne : target.bytes ≠ [])
    (hbelow : S <+: T) (hST : S ≠ T) :
    host.copyDirectoryWith depth source target disk ≠ .ok later := by
  induction depth generalizing source target disk later S T with
  | zero => exact nofun
  | succ depth ih =>
    intro h
    obtain ⟨S', made, hS, hdirectory, hmade, hnames⟩ := copyDirectoryWith_cases h
    cases hsource.symm.trans hS
    obtain ⟨hgrows, hdir⟩ := Disk.createDirAll_grows hmade
    obtain ⟨T', hT, hTdirectory⟩ := hdir hne
    cases (Disk.walk_place hT).trans (Disk.walk_place htarget).symm
    obtain ⟨rest, rfl⟩ := hbelow
    cases rest with
    | nil => exact hST (List.append_nil S).symm
    | cons name rest =>
      -- the directory has a name that leads to the target, so it is one of the names copied
      have hchild : made.at? (S ++ [name]) = some .directory := by
        have hspelled : S ++ name :: rest = S ++ [name] ++ rest := by simp
        cases rest with
        | nil => exact hTdirectory
        | cons next rest =>
          rw [hspelled] at hTdirectory
          have hbelow : made.at? (S ++ [name] ++ next :: rest) ≠ none := by
            rw [hTdirectory]
            exact Option.some_ne_none _
          exact FileTree.directory_of_below hbelow
      have hmem : name ∈ made.children S := by
        rw [FileTree.mem_children, hchild]
        exact Option.some_ne_none _
      obtain ⟨now, next, hnow, hnext⟩ := Except.foldlM_visits (KeepsDirectories made)
        (fun now name next hnow hnext place hplace =>
          copyEntry_keepsDirectories (fun h => copyDirectoryWith_keepsDirectories h) hnext place
            (hnow place hplace))
        (fun _ hplace => hplace) hnames name hmem
      have hkeeps : KeepsDirectories disk now := fun place hplace =>
        hnow place (hgrows.keeps _ _ hplace)
      have hwalkS := Disk.walk_mono hkeeps hsource
      have hwalkT := Disk.walk_mono hkeeps htarget
      have hSnow := hkeeps _ hdirectory
      rcases copyEntry_cases hnext with ⟨_, hcopy⟩ | ⟨contents, hfile, _⟩
      · refine ih (Disk.walk_join_name hwalkS hSnow)
          (Disk.walk_join_name hwalkT (hnow _ hTdirectory))
          (OsPath.join_bytes_ne_nil name.isEntryName.1) ?_ ?_ hcopy
        · exact ⟨rest ++ [name], by simp⟩
        · simp
      · rw [Disk.metadata_of_find (Disk.find_join_name hwalkS hSnow) (hnow _ hchild)] at hfile
        cases hfile

/-! ## A copy elsewhere -/

/-- A copy that does what it should to places apart. -/
def Copies (host : BackupHost) (copy : OsPath → OsPath → Disk → Except Text Disk) : Prop :=
  ∀ {source target disk later S T}, copy source target disk = .ok later →
    disk.walk host.workingDirectory source = .ok S →
    disk.walk host.workingDirectory target = .ok T → target.bytes ≠ [] → S.Apart T →
    (∀ rest, disk.file? (T ++ rest) = none) → KeepsDirectories disk later ∧ Copied disk later S T

/-- The next name is found below the source, as it was at first, and below the target. -/
theorem finds_of_copying {names : List EntryName} {now : Disk}
    (hcopying : Copying disk S T (name :: names) now) (hapart : S.Apart T)
    (hsource : disk.walk host.workingDirectory source = .ok S)
    (hdirectory : disk.at? S = some .directory)
    (htarget : disk.walk host.workingDirectory target = .ok T) :
    now.find host.workingDirectory (source.join (.ofName name)) = .ok (S ++ [name]) ∧
      (∀ rest, now.at? (S ++ [name] ++ rest) = disk.at? (S ++ [name] ++ rest)) ∧
      now.find host.workingDirectory (target.join (.ofName name)) = .ok (T ++ [name]) := by
  have hkeeps := hcopying.keeps
  refine ⟨Disk.find_join_name (Disk.walk_mono hkeeps hsource) (hkeeps _ hdirectory),
    fun rest => ?_, Disk.find_join_name (Disk.walk_mono hkeeps htarget) hcopying.directory⟩
  rw [List.append_assoc]
  exact hcopying.source_eq hapart _

/-- One name is copied. -/
theorem copyEntry_nameCopied {names : List EntryName} {now next : Disk}
    (hcopying : Copying disk S T (name :: names) now) (hapart : S.Apart T)
    (hsource : disk.walk host.workingDirectory source = .ok S)
    (hdirectory : disk.at? S = some .directory)
    (htarget : disk.walk host.workingDirectory target = .ok T) (hcopy : Copies host copy)
    (h : host.copyEntry copy source target now name = .ok next) :
    Copying.NameCopied disk now next S T name := by
  obtain ⟨hsourceFind, hsame, htargetFind⟩ :=
    finds_of_copying hcopying hapart hsource hdirectory htarget
  -- there is no file below the target under this name
  have hfresh : ∀ rest, now.file? (T ++ [name] ++ rest) = none := by
    intro rest
    rw [List.append_assoc, List.singleton_append, hcopying.below, if_pos List.mem_cons_self]
  rcases copyEntry_cases h with ⟨_, h⟩ | ⟨contents, hfile, h⟩
  · obtain ⟨hkept, hcopied⟩ := hcopy h (Disk.find_eq_ok.mp hsourceFind).2
      (Disk.find_eq_ok.mp htargetFind).2 (OsPath.join_bytes_ne_nil name.isEntryName.1)
      (hapart.child name) hfresh
    refine ⟨hkept, fun rest => ?_, fun rest hrest => ?_, hcopied.outside⟩
    · rw [hcopied.below]
      exact FileTree.file?_congr (hsame rest)
    · rw [← hsame rest]
      exact hcopied.adds rest hrest
  · obtain ⟨place, hplace, hat⟩ := Disk.metadata_eq_ok.mp hfile
    cases hsourceFind.symm.trans hplace
    have hsourceFile := (hcopying.source_eq hapart [name]).symm.trans hat
    obtain ⟨place, hplace, hfree, hwritten⟩ := Disk.write_eq_ok h
    cases htargetFind.symm.trans hplace
    have hbelow : ∀ next rest, ¬ T ++ [name] ++ next :: rest = T ++ [name] := fun next rest heq =>
      List.cons_ne_nil _ _ (List.append_right_eq_self.mp heq)
    refine ⟨fun place hplace => ?_, fun rest => ?_, fun rest hrest => ?_, fun place hplace => ?_⟩
    · rw [hwritten, if_neg]
      · exact hplace
      · rintro rfl
        exact hfree hplace
    · cases rest with
      | nil =>
        rw [List.append_nil, List.append_nil]
        exact FileTree.file?_congr (by rw [hwritten, if_pos rfl, hsourceFile])
      | cons next rest =>
        rw [FileTree.file?_below_of_file hsourceFile, ← hfresh (next :: rest)]
        exact FileTree.file?_congr ((hwritten _).trans (if_neg (hbelow next rest)))
    · cases rest with
      | nil =>
        rw [List.append_nil, hsourceFile]
        exact .inl (Option.some_ne_none _)
      | cons next rest =>
        rw [hwritten, if_neg (hbelow next rest)] at hrest
        exact .inr hrest
    · rw [hwritten, if_neg]
      rintro rfl
      exact hplace (List.prefix_refl _)

/-- The names are copied one after the other. -/
theorem foldlM_copyEntry_copying {names : List EntryName} {now : Disk}
    (hcopying : Copying disk S T names now) (hnodup : names.Nodup) (hapart : S.Apart T)
    (hsource : disk.walk host.workingDirectory source = .ok S)
    (hdirectory : disk.at? S = some .directory)
    (htarget : disk.walk host.workingDirectory target = .ok T) (hcopy : Copies host copy)
    (h : names.foldlM (host.copyEntry copy source target) now = .ok later) :
    KeepsDirectories disk later ∧ Copied disk later S T := by
  induction names generalizing now with
  | nil =>
    cases h
    exact ⟨hcopying.keeps, hcopying.copied hdirectory⟩
  | cons name names ih =>
    obtain ⟨hname, hnodup⟩ := List.nodup_cons.mp hnodup
    obtain ⟨next, hnext, hrest⟩ := Except.foldlM_cons_ok.mp h
    have hcopied := copyEntry_nameCopied hcopying hapart hsource hdirectory htarget hcopy hnext
    exact ih (hcopying.step hname hcopied) hnodup hrest

/-- Once the target is made, everything is still to be copied. -/
theorem copying_of_made {made : Disk}
    (hat : ∀ place, made.at? place = if place = T then some .directory else disk.at? place)
    (hapart : S.Apart T) (hdirectory : disk.at? S = some .directory)
    (hempty : ∀ rest, disk.file? (T ++ rest) = none) :
    Copying disk S T (made.children S) made where
  keeps place hplace := by
    rw [hat]
    split
    · rfl
    · exact hplace
  directory := by rw [hat, if_pos rfl]
  below name rest := by
    have hne : ¬ T ++ name :: rest = T := fun heq =>
      List.cons_ne_nil _ _ (List.append_right_eq_self.mp heq)
    rw [FileTree.file?_congr ((hat _).trans (if_neg hne)), hempty]
    split
    · rfl
    · rename_i hname
      -- what is no name of the directory leads nowhere
      rw [FileTree.mem_children, not_not, hat, if_neg] at hname
      · have hspelled : S ++ name :: rest = S ++ [name] ++ rest := by simp
        rw [hspelled, FileTree.file?_of_none (FileTree.at?_below_of_none hname)]
      · rintro rfl
        exact hapart.1 (List.prefix_append S [name])
  adds rest hrest := by
    cases rest with
    | nil =>
      rw [List.append_nil, hdirectory]
      exact .inl (Option.some_ne_none _)
    | cons name rest =>
      have hne : ¬ T ++ name :: rest = T := fun heq =>
        List.cons_ne_nil _ _ (List.append_right_eq_self.mp heq)
      rw [hat, if_neg hne] at hrest
      exact .inr hrest
  outside place hplace := by
    rw [hat, if_neg]
    rintro rfl
    exact hplace (List.prefix_refl _)

/-- Making the directory that a path leads to changes nothing else. -/
theorem made_at? {made : Disk} (htarget : disk.walk host.workingDirectory target = .ok T)
    (hne : target.bytes ≠ []) (h : disk.createDirAll host.workingDirectory target = .ok made) :
    ∀ place, made.at? place = if place = T then some .directory else disk.at? place := by
  obtain ⟨hgrows, hdir⟩ := Disk.createDirAll_grows h
  obtain ⟨T', hT, hdirectory⟩ := hdir hne
  cases (Disk.walk_place hT).trans (Disk.walk_place htarget).symm
  have hplace : disk.at? T = some .directory ∨ disk.at? T = none := by
    cases hentry : disk.at? T with
    | none => exact .inr rfl
    | some entry =>
      refine .inl ?_
      rw [← hgrows.keeps _ _ hentry, hdirectory]
  obtain ⟨made', hmade, hat⟩ := Disk.createDirAll_of_walk hne htarget hplace
  cases h.symm.trans hmade
  exact hat

/-- A directory is copied to a place apart from it below which there are no files. -/
theorem copyDirectoryWith_copied (depth : Nat) : Copies host (host.copyDirectoryWith depth) := by
  induction depth with
  | zero => exact nofun
  | succ depth ih =>
    intro source target disk later S T h hsource htarget hne hapart hempty
    obtain ⟨S', made, hS, hdirectory, hmade, hnames⟩ := copyDirectoryWith_cases h
    cases hsource.symm.trans hS
    have hcopying := copying_of_made (made_at? htarget hne hmade) hapart hdirectory hempty
    exact foldlM_copyEntry_copying hcopying FileTree.nodup_children hapart hsource
      hdirectory htarget
      ih hnames

/-! ## A copy below one place -/

/-- There are no files below a place. -/
def NoFiles (disk : Disk) (place : Place) : Prop :=
  ∀ rest, disk.file? (place ++ rest) = none

/-- Where there are no files below a place, nothing in it is copied as a file. -/
theorem copyDirectoryWith_noFiles {depth : Nat} {place : Place} (hnone : NoFiles disk place)
    (hsource : place <+: S) (hwalk : disk.walk host.workingDirectory source = .ok S)
    (h : host.copyDirectoryWith depth source target disk = .ok later) : NoFiles later place := by
  induction depth generalizing source target disk later S with
  | zero => cases h
  | succ depth ih =>
    obtain ⟨S', made, hS, hdirectory, hmade, hnames⟩ := copyDirectoryWith_cases h
    cases hwalk.symm.trans hS
    have hgrows := (Disk.createDirAll_grows hmade).1
    have hfold := Except.foldlM_invariant
      (fun now => KeepsDirectories disk now ∧ NoFiles now place) ?_ ?_ hnames
    · exact hfold.2
    · intro now name next _ ⟨hkeeps, hnow⟩ hnext
      have hfind : now.find host.workingDirectory (source.join (.ofName name)) =
          .ok (S ++ [name]) :=
        Disk.find_join_name (Disk.walk_mono hkeeps hwalk) (hkeeps _ hdirectory)
      have hkept := copyEntry_keepsDirectories
        (fun h => copyDirectoryWith_keepsDirectories h) hnext
      refine ⟨fun place hplace => hkept place (hkeeps place hplace), ?_⟩
      rcases copyEntry_cases hnext with ⟨_, h⟩ | ⟨contents, hfile, _⟩
      · exact ih hnow (hsource.trans (List.prefix_append S [name])) (Disk.find_eq_ok.mp hfind).2 h
      · obtain ⟨found, hfound, hat⟩ := Disk.metadata_eq_ok.mp hfile
        cases hfind.symm.trans hfound
        obtain ⟨rest, rfl⟩ := hsource
        have hno := hnow (rest ++ [name])
        rw [← List.append_assoc, FileTree.file?_eq_some.mpr hat] at hno
        cases hno
    · refine ⟨fun place hplace => hgrows.keeps _ _ hplace, fun rest => ?_⟩
      rw [hgrows.file?_eq]
      exact hnone rest

/-! ## Depth -/

/-- A directory that was copied is no deeper than a copy goes. -/
theorem copyDirectoryWith_depth {depth : Nat} {rest : Place}
    (hwalk : disk.walk host.workingDirectory source = .ok S)
    (h : host.copyDirectoryWith depth source target disk = .ok later)
    (hrest : disk.at? (S ++ rest) = some .directory) : rest.length < depth := by
  induction depth generalizing source target disk later S rest with
  | zero => cases h
  | succ depth ih =>
    obtain ⟨S', made, hS, hdirectory, hmade, hnames⟩ := copyDirectoryWith_cases h
    cases hwalk.symm.trans hS
    have hgrows := (Disk.createDirAll_grows hmade).1
    cases rest with
    | nil => exact Nat.succ_pos depth
    | cons name rest =>
      have hspelled : S ++ name :: rest = S ++ [name] ++ rest := by simp
      rw [hspelled] at hrest
      have hchild : disk.at? (S ++ [name]) = some .directory := by
        cases rest with
        | nil =>
          rw [List.append_nil] at hrest
          exact hrest
        | cons next rest =>
          refine FileTree.directory_of_below (?_ : disk.at? (S ++ [name] ++ next :: rest) ≠ none)
          rw [hrest]
          exact Option.some_ne_none _
      have hmem : name ∈ made.children S := by
        rw [FileTree.mem_children, hgrows.keeps _ _ hchild]
        exact Option.some_ne_none _
      obtain ⟨now, next, hnow, hnext⟩ := Except.foldlM_visits (KeepsDirectories disk)
        (fun now name next hnow hnext place hplace =>
          copyEntry_keepsDirectories (fun h => copyDirectoryWith_keepsDirectories h) hnext place
            (hnow place hplace))
        (fun place hplace => hgrows.keeps _ _ hplace) hnames name hmem
      have hfind : now.find host.workingDirectory (source.join (.ofName name)) =
          .ok (S ++ [name]) :=
        Disk.find_join_name (Disk.walk_mono hnow hwalk) (hnow _ hdirectory)
      rcases copyEntry_cases hnext with ⟨_, hcopy⟩ | ⟨contents, hfile, _⟩
      · have hlt := ih (Disk.find_eq_ok.mp hfind).2 hcopy (hnow _ hrest)
        rw [List.length_cons]
        omega
      · rw [Disk.metadata_of_find hfind (hnow _ hchild)] at hfile
        cases hfile

/-- Nothing stands below a place under these names. -/
def Fresh (now : Disk) (place : Place) (names : List EntryName) : Prop :=
  ∀ name ∈ names, ∀ rest, now.at? (place ++ name :: rest) = none

/-- The names are copied when each directory among them can be. -/
theorem foldlM_copyEntry_succeeds {names : List EntryName} {now : Disk}
    (hcopying : Copying disk S T names now) (hnodup : names.Nodup) (hfresh : Fresh now T names)
    (hapart : S.Apart T) (hsource : disk.walk host.workingDirectory source = .ok S)
    (hdirectory : disk.at? S = some .directory)
    (htarget : disk.walk host.workingDirectory target = .ok T) (hcopy : Copies host copy)
    (hnames : ∀ name ∈ names, disk.at? (S ++ [name]) ≠ none)
    (hsucceeds : ∀ now name, disk.at? (S ++ [name]) = some .directory →
      (∀ rest, now.at? (S ++ [name] ++ rest) = disk.at? (S ++ [name] ++ rest)) →
      (∀ rest, now.at? (T ++ [name] ++ rest) = none) →
      now.find host.workingDirectory (source.join (.ofName name)) = .ok (S ++ [name]) →
      now.walk host.workingDirectory (target.join (.ofName name)) = .ok (T ++ [name]) →
      ∃ next, copy (source.join (.ofName name)) (target.join (.ofName name)) now = .ok next) :
    ∃ later, names.foldlM (host.copyEntry copy source target) now = .ok later := by
  induction names generalizing now with
  | nil => exact ⟨now, rfl⟩
  | cons name names ih =>
    obtain ⟨hname, hnodup⟩ := List.nodup_cons.mp hnodup
    obtain ⟨hsourceFind, hsame, htargetFind⟩ :=
      finds_of_copying hcopying hapart hsource hdirectory htarget
    have hnone : ∀ rest, now.at? (T ++ [name] ++ rest) = none := by
      intro rest
      rw [List.append_assoc]
      exact hfresh name List.mem_cons_self rest
    have hnext : ∃ next, host.copyEntry copy source target now name = .ok next := by
      obtain ⟨entry, hentry⟩ := Option.ne_none_iff_exists'.mp (hnames name List.mem_cons_self)
      have hnow : now.at? (S ++ [name]) = some entry := by
        rw [← hentry]
        exact hcopying.source_eq hapart [name]
      have hmetadata := Disk.metadata_of_find hsourceFind hnow
      unfold copyEntry
      dsimp only
      rw [hmetadata]
      cases entry with
      | directory =>
        exact hsucceeds now name hentry hsame hnone hsourceFind
          (Disk.find_eq_ok.mp htargetFind).2
      | file contents =>
        have hfree : now.at? (T ++ [name]) ≠ some .directory := by
          have hnil := hnone []
          rw [List.append_nil] at hnil
          rw [hnil]
          simp
        obtain ⟨next, hnext⟩ :=
          @Disk.write_of_find _ _ _ _ _ contents htargetFind hcopying.directory hfree
        exact ⟨next, Except.mapError_eq_ok.mpr hnext⟩
    obtain ⟨next, hnext⟩ := hnext
    have hcopied := copyEntry_nameCopied hcopying hapart hsource hdirectory htarget hcopy hnext
    have hrest := ih (hcopying.step hname hcopied) hnodup ?_
      (fun other hother => hnames other (List.mem_cons_of_mem _ hother))
    · obtain ⟨later, hlater⟩ := hrest
      exact ⟨later, Except.foldlM_cons_ok.mpr ⟨next, hnext, hlater⟩⟩
    · intro other hother rest
      have hne : name ≠ other := by
        rintro rfl
        exact hname hother
      rw [hcopied.outside _ (not_prefix_of_ne hne)]
      exact hfresh other (List.mem_cons_of_mem _ hother) rest

/-- A directory that is not too deep can be copied to a place apart from it where nothing stands. -/
theorem copyDirectoryWith_succeeds {depth : Nat}
    (hsource : disk.find host.workingDirectory source = .ok S)
    (hdirectory : disk.at? S = some .directory)
    (htarget : disk.walk host.workingDirectory target = .ok T) (hne : target.bytes ≠ [])
    (hplace : disk.at? T = some .directory ∨ disk.at? T = none) (hapart : S.Apart T)
    (hempty : ∀ name rest, disk.at? (T ++ name :: rest) = none)
    (hdepth : ∀ rest, disk.at? (S ++ rest) = some .directory → rest.length < depth) :
    ∃ later, host.copyDirectoryWith depth source target disk = .ok later := by
  induction depth generalizing source target disk S T with
  | zero =>
    have hroot : disk.at? (S ++ []) = some .directory := by
      rw [List.append_nil]
      exact hdirectory
    exact absurd (hdepth [] hroot) (Nat.not_lt_zero _)
  | succ depth ih =>
    have hwalk := (Disk.find_eq_ok.mp hsource).2
    obtain ⟨made, hmade, hat⟩ := Disk.createDirAll_of_walk hne htarget hplace
    have hgrows := (Disk.createDirAll_grows hmade).1
    have hsourceMade : made.find host.workingDirectory source = .ok S :=
      Disk.find_eq_ok.mpr ⟨(Disk.find_eq_ok.mp hsource).1,
        Disk.walk_mono (fun place => hgrows.keeps place _) hwalk⟩
    have hnofile : ∀ rest, disk.file? (T ++ rest) = none := by
      intro rest
      cases rest with
      | nil =>
        rw [List.append_nil]
        rcases hplace with hplace | hplace
        · rw [FileTree.file?, hplace]
        · exact FileTree.file?_of_none hplace
      | cons name rest => exact FileTree.file?_of_none (hempty name rest)
    have hne' : ∀ name rest, ¬ T ++ name :: rest = T := fun name rest heq =>
      List.cons_ne_nil _ _ (List.append_right_eq_self.mp heq)
    have hnames : ∀ name ∈ made.children S, disk.at? (S ++ [name]) ≠ none := by
      intro name hname
      rw [FileTree.mem_children, hat, if_neg] at hname
      · exact hname
      · rintro rfl
        exact hapart.1 (List.prefix_append S [name])
    have hfold := foldlM_copyEntry_succeeds
      (copying_of_made hat hapart hdirectory hnofile) FileTree.nodup_children
      (fun name _ rest => by rw [hat, if_neg (hne' name rest), hempty]) hapart hwalk hdirectory
      htarget (copyDirectoryWith_copied depth) hnames
    obtain ⟨later, hlater⟩ := hfold fun now name hchild hsame hnone hfind hwalkTarget => by
      have hnil := hnone []
      rw [List.append_nil] at hnil
      have hchildNow := hsame []
      rw [List.append_nil, hchild] at hchildNow
      refine ih hfind hchildNow hwalkTarget (OsPath.join_bytes_ne_nil name.isEntryName.1)
        (.inr hnil) (hapart.child name) (fun next rest => hnone (next :: rest)) fun rest hrest => ?_
      rw [hsame, List.append_assoc] at hrest
      have hlt := hdepth _ hrest
      rw [List.length_append, List.length_singleton] at hlt
      omega
    refine ⟨later, ?_⟩
    have hdir : disk.isDir host.workingDirectory source = true :=
      Disk.isDir_iff.mpr ⟨S, hsource, hdirectory⟩
    unfold copyDirectoryWith
    refine Except.bind_eq_ok.mpr ⟨(), refuseIf_eq_ok.mpr (by simp [hdir]), ?_⟩
    rw [hmade]
    refine Except.bind_eq_ok.mpr ⟨made, rfl, ?_⟩
    rw [Disk.readDir_of_find hsourceMade (hgrows.keeps _ _ hdirectory)]
    exact Except.bind_eq_ok.mpr ⟨_, rfl, hlater⟩

end BackupHost

end Tangle
