import Tangle.Groups.Signing
import Tangle.Host.Paths
import Tangle.Lib.Ordered
import Tangle.Runtime.Script

/-!
# The directories of tenants

A set of tenants is accepted when no two of them have an id, a schema, a host, an address, a key or
the spelling of a data directory in common. A spelling does not tell where a relative path starts,
and a directory lies inside another of another spelling. So the directories of an accepted set are
apart, whatever the working directory, exactly when they are of one kind and none leads into another
(`PathBuf.Apart`); and two tenants are refused for their directories only when these meet, except
that the spelling takes two names for one or drops what leads out of the working directory
(`PathBuf.Meets`).
-/

namespace Tangle

/-- What tells a tenant from others. -/
structure TenantRuntimeConfig where
  tenantId : Text
  tenantSchema : Text
  host : Text
  relayUrl : Text
  relaySecret : Option RelaySecret
  dataDirectory : PathBuf
  inactive : Bool

/-- `relay_self_pubkey`: the key that the secret in the tenant's configuration stands for, if it has
one. -/
def TenantRuntimeConfig.relaySelfPubkey (pocket : PocketTypes) (tenant : TenantRuntimeConfig) :
    Except BaseRelayError (Option PublicKeyHex) :=
  match tenant.relaySecret with
  | none => .ok none
  | some secret => do
    let signer ← (RelaySigner.fromSecretHex pocket secret).mapError BaseRelayError.invalid
    return some signer.publicKey

/-! ## The check of a set -/

/-- `insert_unique`: a value that is there already is an error that names the field. -/
def insertUnique (field : String) (value : Text) (values : BTreeSet Text) :
    Except BaseRelayError (BTreeSet Text) :=
  if values.contains value then
    .error (.invalid s!"duplicate tenant {field}: {value.toMessage}")
  else
    .ok (values.insert value)

/-- What the tenants looked at so far have taken. -/
structure TenantsSeen where
  tenantIds : BTreeSet Text
  tenantSchemas : BTreeSet Text
  hosts : BTreeSet Text
  relayUrls : BTreeSet Text
  relaySelfPubkeys : BTreeSet Text
  storePaths : BTreeSet Text

/-- `TenantsSeen::new`: nothing has been seen. -/
def TenantsSeen.new : TenantsSeen :=
  ⟨∅, ∅, ∅, ∅, ∅, ∅⟩

/-- The checks of a tenant before that of its directory. -/
def checkTenantNames (pocket : PocketTypes) (seen : TenantsSeen) (tenant : TenantRuntimeConfig) :
    Except BaseRelayError TenantsSeen := do
  let tenantIds ← insertUnique "tenant_id" tenant.tenantId seen.tenantIds
  let tenantSchemas ← insertUnique "tenant_schema" tenant.tenantSchema seen.tenantSchemas
  let hosts ← insertUnique "host" tenant.host seen.hosts
  let relayUrls ← insertUnique "relay_url" tenant.relayUrl seen.relayUrls
  let relaySelfPubkeys ← match ← tenant.relaySelfPubkey pocket with
    | some pubkey => insertUnique "relay self pubkey" pubkey.text seen.relaySelfPubkeys
    | none => .ok seen.relaySelfPubkeys
  return { seen with tenantIds, tenantSchemas, hosts, relayUrls, relaySelfPubkeys }

/-- The checks of one tenant: its names against those seen, and its store's path. -/
def checkTenant (pocket : PocketTypes) (seen : TenantsSeen) (tenant : TenantRuntimeConfig) :
    Except BaseRelayError TenantsSeen := do
  let seen ← checkTenantNames pocket seen tenant
  let storePath := canonicalPathKey tenant.dataDirectory
  let storePaths ← insertUnique "pocket data directory" storePath seen.storePaths
  return { seen with storePaths }

/-- `validate_tenant_config_set`: the tenants are checked in the order of the configuration. -/
def validateTenantConfigSet (pocket : PocketTypes) (tenants : List TenantRuntimeConfig) :
    Except BaseRelayError Unit := do
  if tenants.all TenantRuntimeConfig.inactive then
    .error (.invalid "at least one active tenant is required")
  else
    let _ ← tenants.foldlM (checkTenant pocket) .new
    return ()

/-! ## Directories that are apart -/

/-- Of two lists, one is the beginning of the other. -/
def Comparable {α : Type*} (xs ys : List α) : Prop :=
  xs <+: ys ∨ ys <+: xs

/-- Two sequences are comparable either way round. -/
theorem Comparable.symm {α : Type*} {xs ys : List α} (h : Comparable xs ys) : Comparable ys xs :=
  Or.symm h

/-- A common beginning does not matter to whether two sequences are comparable. -/
theorem comparable_append_left {α : Type*} {base xs ys : List α} :
    Comparable (base ++ xs) (base ++ ys) ↔ Comparable xs ys := by
  unfold Comparable
  rw [List.prefix_append_right_inj, List.prefix_append_right_inj]

namespace PathBuf

variable {path other : PathBuf}

/-- From the working directory, no file is in both directories or below them. -/
def DisjointAt (workingDirectory : List FileName) (path other : PathBuf) : Prop :=
  ∀ file, ¬ (path.resolve workingDirectory <+: file ∧ other.resolve workingDirectory <+: file)

/-- Two paths are apart at a working directory exactly when neither of the places they lead to is
above the other. -/
theorem disjointAt_iff {workingDirectory : List FileName} :
    DisjointAt workingDirectory path other ↔
      ¬ Comparable (path.resolve workingDirectory) (other.resolve workingDirectory) := by
  refine ⟨fun h hmeet => ?_, fun h file ⟨hpath, hother⟩ => h ?_⟩
  · rcases hmeet with hpath | hother
    · exact h _ ⟨hpath, List.prefix_refl _⟩
    · exact h _ ⟨List.prefix_refl _, hother⟩
  · exact List.prefix_or_prefix_of_prefix hpath hother

/-- Two directories are apart: both paths are absolute or both are relative, and neither list of
names begins the other. The path that starts further up comes down by any names to where the other
starts, so this has to hold without some of its first names as well. -/
structure Apart (path other : PathBuf) : Prop where
  absolute : path.absolute = other.absolute
  left : ∀ k ≤ other.ups - path.ups, ¬ Comparable path.names (other.names.drop k)
  right : ∀ k ≤ path.ups - other.ups, ¬ Comparable other.names (path.names.drop k)

/-- Two paths are apart either way round. -/
theorem Apart.symm (h : Apart path other) : Apart other path :=
  ⟨h.absolute.symm, h.right, h.left⟩

/-- Two directories of one spelling meet, wherever they start: their names are the same, and either
they start from the same place or they have no names. -/
def Meets (path other : PathBuf) : Prop :=
  path.names = other.names ∧ (path.ups = other.ups ∨ path.names = [])

/-- The spellings of two paths are the same: both are absolute or relative, and their names are
spelled alike. -/
def SpelledAlike (path other : PathBuf) : Prop :=
  path.absolute = other.absolute ∧
    path.names.map FileName.toStringLossy = other.names.map FileName.toStringLossy

/-! ### Every working directory -/

/-- A name that another is not. -/
theorem exists_name_ne (name : FileName) : ∃ other : FileName, other ≠ name := by
  let first : FileName := ⟨[0x61], by decide, by simp⟩
  let second : FileName := ⟨[0x62], by decide, by simp⟩
  by_cases h : name = first
  · refine ⟨second, ?_⟩
    rw [h]
    decide
  · exact ⟨first, fun heq => h heq.symm⟩

/-- What the working directory has above the place a path starts from, and what it has from there to
the place that the other starts from. -/
theorem exists_rdrop_eq_append {directory : List FileName} {ups more : Nat} (hle : ups ≤ more) :
    ∃ down, directory.rdrop ups = directory.rdrop more ++ down ∧ down.length ≤ more - ups := by
  refine ⟨(directory.rdrop ups).drop (directory.length - more), ?_, ?_⟩
  · have htake : directory.rdrop more = (directory.rdrop ups).take (directory.length - more) := by
      rw [List.rdrop, List.rdrop, List.take_take]
      congr 1
      omega
    rw [htake, List.take_append_drop]
  · rw [List.length_drop, List.rdrop, List.length_take]
    omega

/-- Names that go down to another place and on meet others when what they go on with meets the
rest. -/
theorem comparable_drop {down xs ys : List FileName} (h : Comparable (down ++ xs) ys) :
    Comparable xs (ys.drop down.length) := by
  rcases h with h | h
  · refine .inl ?_
    have hdrop := h.drop down.length
    rwa [List.drop_left] at hdrop
  · refine .inr ?_
    have hdrop := h.drop down.length
    rwa [List.drop_left] at hdrop

/-- A path that starts no further up than another is apart from it, when both are relative. -/
theorem disjointAt_of_left (hpath : path.absolute = false) (hother : other.absolute = false)
    (hle : path.ups ≤ other.ups)
    (h : ∀ k ≤ other.ups - path.ups, ¬ Comparable path.names (other.names.drop k))
    (workingDirectory : List FileName) : DisjointAt workingDirectory path other := by
  rw [disjointAt_iff, resolve_eq hpath, resolve_eq hother]
  obtain ⟨down, hdown, hlength⟩ := @exists_rdrop_eq_append workingDirectory _ _ hle
  rw [hdown, List.append_assoc, comparable_append_left]
  exact fun hmeet => h _ hlength (comparable_drop hmeet)

/-- A working directory from which one path starts at given names and the other at the root. -/
theorem exists_workingDirectory (down : List FileName) {ups more : Nat} (name : FileName)
    (h : down.length + ups ≤ more) : ∃ workingDirectory : List FileName,
      workingDirectory.rdrop ups = down ∧ workingDirectory.rdrop more = [] := by
  refine ⟨down ++ List.replicate ups name, ?_, ?_⟩
  · rw [List.rdrop, List.length_append, List.length_replicate, Nat.add_sub_cancel, List.take_left]
  · rw [List.rdrop, List.length_append, List.length_replicate, Nat.sub_eq_zero_of_le h,
      List.take_zero]

/-- Two relative paths that are apart everywhere are apart with any of the working directory's names
before the one that climbs less. -/
theorem left_of_disjointAt (hpath : path.absolute = false) (hother : other.absolute = false)
    (h : ∀ workingDirectory, DisjointAt workingDirectory path other) :
    ∀ k ≤ other.ups - path.ups, ¬ Comparable path.names (other.names.drop k) := by
  intro k hk hmeet
  let name : FileName := ⟨[0x61], by decide, by simp⟩
  by_cases hle : path.ups ≤ other.ups
  · -- from here the first names of the other path lead to where this one starts
    have hlength : (other.names.take k).length + path.ups ≤ other.ups := by
      rw [List.length_take]
      omega
    obtain ⟨workingDirectory, hdown, hroot⟩ :=
      exists_workingDirectory (other.names.take k) name hlength
    have hdisjoint := h workingDirectory
    rw [disjointAt_iff, resolve_eq hpath, resolve_eq hother, hdown, hroot,
      List.nil_append] at hdisjoint
    have hsplit : Comparable (other.names.take k ++ path.names)
        (other.names.take k ++ other.names.drop k) := comparable_append_left.mpr hmeet
    rw [List.take_append_drop] at hsplit
    exact hdisjoint hsplit
  · -- the other path starts no further up, so this is the case without its first names
    have hzero : k = 0 := by omega
    subst hzero
    have hroot : ([] : List FileName).rdrop path.ups = [] ∧
        ([] : List FileName).rdrop other.ups = [] :=
      ⟨List.rdrop_nil _, List.rdrop_nil _⟩
    have hdisjoint := h []
    rw [disjointAt_iff, resolve_eq hpath, resolve_eq hother, hroot.1, hroot.2, List.nil_append,
      List.nil_append] at hdisjoint
    exact hdisjoint hmeet

/-- Two paths are disjoint either way round. -/
theorem DisjointAt.symm {workingDirectory : List FileName}
    (h : DisjointAt workingDirectory path other) : DisjointAt workingDirectory other path :=
  fun file ⟨hother, hpath⟩ => h file ⟨hpath, hother⟩

/-- An absolute path meets a relative one from some working directory. -/
theorem not_disjointAt_of_mixed (hpath : path.absolute = true) (hother : other.absolute = false) :
    ∃ workingDirectory, ¬ DisjointAt workingDirectory path other := by
  let name : FileName := ⟨[0x61], by decide, by simp⟩
  obtain ⟨workingDirectory, hdown, _⟩ :=
    exists_workingDirectory path.names name (le_refl (path.names.length + other.ups))
  refine ⟨workingDirectory, fun hdisjoint => ?_⟩
  rw [disjointAt_iff, resolve_of_absolute hpath, resolve_eq hother, hdown] at hdisjoint
  exact hdisjoint (.inl (List.prefix_append _ _))

/-- **Two directories.** They are disjoint from every working directory exactly when they are
apart. -/
theorem disjointAt_iff_apart :
    (∀ workingDirectory, DisjointAt workingDirectory path other) ↔ Apart path other := by
  have hups : ∀ {path : PathBuf}, path.absolute = true → path.ups = 0 := by
    intro path h
    unfold ups
    rw [h, if_pos rfl]
  constructor
  · intro h
    cases hpath : path.absolute with
    | false =>
      cases hother : other.absolute with
      | false =>
        exact ⟨hpath.trans hother.symm, left_of_disjointAt hpath hother h,
          left_of_disjointAt hother hpath fun directory => (h directory).symm⟩
      | true =>
        obtain ⟨directory, hmeet⟩ := not_disjointAt_of_mixed hother hpath
        exact absurd (h directory).symm hmeet
    | true =>
      cases hother : other.absolute with
      | false =>
        obtain ⟨directory, hmeet⟩ := not_disjointAt_of_mixed hpath hother
        exact absurd (h directory) hmeet
      | true =>
        have hnames : ¬ Comparable path.names other.names := by
          have hdisjoint := h []
          rwa [disjointAt_iff, resolve_of_absolute hpath, resolve_of_absolute hother] at hdisjoint
        refine ⟨hpath.trans hother.symm, fun k hk => ?_, fun k hk => ?_⟩
        · rw [hups hpath, hups hother, Nat.le_zero] at hk
          subst hk
          exact hnames
        · rw [hups hpath, hups hother, Nat.le_zero] at hk
          subst hk
          exact mt Comparable.symm hnames
  · intro h directory
    cases hpath : path.absolute with
    | true =>
      rw [disjointAt_iff, resolve_of_absolute hpath,
        resolve_of_absolute (h.absolute.symm.trans hpath)]
      exact h.left 0 (Nat.zero_le _)
    | false =>
      have hother := h.absolute.symm.trans hpath
      rcases Nat.le_total path.ups other.ups with hle | hle
      · exact disjointAt_of_left hpath hother hle h.left directory
      · exact (disjointAt_of_left hother hpath hle h.right directory).symm

/-- Two sequences of one length that are comparable are equal. -/
theorem eq_of_comparable {xs ys : List FileName} (h : Comparable xs ys)
    (hlength : xs.length = ys.length) : xs = ys :=
  h.elim (fun h => h.eq_of_length hlength) fun h => (h.eq_of_length hlength.symm).symm

/-- Two paths spelled alike have as many names. -/
theorem SpelledAlike.length (h : SpelledAlike path other) :
    path.names.length = other.names.length := by
  have hlength := congrArg List.length h.2
  rwa [List.length_map, List.length_map] at hlength

/-- A path that starts further up than another is disjoint from it somewhere, unless it has no
names. -/
theorem names_eq_nil_of_lt (hpath : path.absolute = false) (hother : other.absolute = false)
    (hlt : path.ups < other.ups)
    (h : ∀ workingDirectory, ¬ DisjointAt workingDirectory path other) : other.names = [] := by
  cases hnames : other.names with
  | nil => rfl
  | cons name names =>
    obtain ⟨away, haway⟩ := exists_name_ne name
    obtain ⟨directory, hdown, hroot⟩ := exists_workingDirectory [away] name
      (show [away].length + path.ups ≤ other.ups by rw [List.length_singleton]; omega)
    have hmeet := h directory
    rw [disjointAt_iff, not_not, resolve_eq hpath, resolve_eq hother, hdown, hroot, hnames] at hmeet
    rcases hmeet with hmeet | hmeet
    · exact absurd (List.cons_prefix_cons.mp hmeet).1 haway
    · exact absurd (List.cons_prefix_cons.mp hmeet).1.symm haway

/-- Paths of one spelling are nowhere disjoint exactly when they meet. -/
theorem not_disjointAt_iff_meets (h : SpelledAlike path other) :
    (∀ workingDirectory, ¬ DisjointAt workingDirectory path other) ↔ Meets path other := by
  have hlength := h.length
  cases hpath : path.absolute with
  | true =>
    have hother : other.absolute = true := h.1.symm.trans hpath
    have hups : path.ups = other.ups := by
      unfold ups
      rw [hpath, hother, if_pos rfl, if_pos rfl]
    refine ⟨fun hmeet => ⟨eq_of_comparable ?_ hlength, .inl hups⟩, fun ⟨hnames, _⟩ directory => ?_⟩
    · have hmeet := hmeet []
      rwa [disjointAt_iff, not_not, resolve_of_absolute hpath, resolve_of_absolute hother] at hmeet
    · rw [disjointAt_iff, not_not, resolve_of_absolute hpath, resolve_of_absolute hother, hnames]
      exact .inl (List.prefix_refl _)
  | false =>
    have hother : other.absolute = false := h.1.symm.trans hpath
    constructor
    · intro hmeet
      rcases Nat.lt_trichotomy path.ups other.ups with hlt | heq | hlt
      · have hnil := names_eq_nil_of_lt hpath hother hlt hmeet
        rw [hnil, List.length_nil, List.length_eq_zero_iff] at hlength
        exact ⟨hlength.trans hnil.symm, .inr hlength⟩
      · refine ⟨eq_of_comparable ?_ hlength, .inl heq⟩
        have hmeet := hmeet []
        rwa [disjointAt_iff, not_not, resolve_eq hpath, resolve_eq hother, List.rdrop_nil,
          List.rdrop_nil] at hmeet
      · have hnil := names_eq_nil_of_lt hother hpath hlt
          fun directory hdisjoint => hmeet directory hdisjoint.symm
        rw [hnil, List.length_nil] at hlength
        exact ⟨hnil.trans (List.length_eq_zero_iff.mp hlength.symm).symm, .inr hnil⟩
    · intro ⟨hnames, hstart⟩ directory
      rw [disjointAt_iff, not_not, resolve_eq hpath, resolve_eq hother, ← hnames]
      rcases hstart with hups | hnil
      · rw [hups]
        exact .inl (List.prefix_refl _)
      · rw [hnil, List.append_nil, List.append_nil]
        exact List.prefix_or_prefix_of_prefix (List.take_prefix _ _) (List.take_prefix _ _)

end PathBuf

/-! ## Sets of tenants -/

section
variable {pocket : PocketTypes} {seen seen' : TenantsSeen} {tenant other : TenantRuntimeConfig}
  {tenants : List TenantRuntimeConfig}

/-- A value is put into the set exactly when it is not there. -/
theorem insertUnique_eq_ok {field : String} {value : Text} {values values' : BTreeSet Text} :
    insertUnique field value values = .ok values' ↔
      values.contains value = false ∧ values' = values.insert value := by
  unfold insertUnique
  cases values.contains value with
  | true => simp
  | false => simp [eq_comm]

/-- The checks before that of the directory do not look at directories. -/
theorem storePaths_of_checkTenantNames (h : checkTenantNames pocket seen tenant = .ok seen') :
    seen'.storePaths = seen.storePaths := by
  unfold checkTenantNames at h
  obtain ⟨_, _, h⟩ := Except.bind_eq_ok.mp h
  obtain ⟨_, _, h⟩ := Except.bind_eq_ok.mp h
  obtain ⟨_, _, h⟩ := Except.bind_eq_ok.mp h
  obtain ⟨_, _, h⟩ := Except.bind_eq_ok.mp h
  obtain ⟨pubkey, _, h⟩ := Except.bind_eq_ok.mp h
  cases pubkey with
  | none =>
    cases h
    rfl
  | some pubkey =>
    obtain ⟨_, _, h⟩ := Except.bind_eq_ok.mp h
    cases h
    rfl

/-- **The checks of one tenant, as one condition**: its names are new to the host and so is the key
of its store's path. -/
theorem checkTenant_eq_ok : checkTenant pocket seen tenant = .ok seen' ↔
    ∃ named, checkTenantNames pocket seen tenant = .ok named ∧
      seen.storePaths.contains (canonicalPathKey tenant.dataDirectory) = false ∧
      seen' = { named with
        storePaths := seen.storePaths.insert (canonicalPathKey tenant.dataDirectory) } := by
  unfold checkTenant
  rw [Except.bind_eq_ok]
  refine exists_congr fun named => and_congr_right fun hnamed => ?_
  rw [← storePaths_of_checkTenantNames hnamed, Except.bind_eq_ok]
  constructor
  · intro ⟨storePaths, hinsert, h⟩
    cases h
    obtain ⟨hfresh, rfl⟩ := insertUnique_eq_ok.mp hinsert
    exact ⟨hfresh, rfl⟩
  · intro ⟨hfresh, h⟩
    exact ⟨_, insertUnique_eq_ok.mpr ⟨hfresh, rfl⟩, congrArg Except.ok h.symm⟩

/-- What a set holds with a text more: that text and what it held. -/
theorem contains_insert_text {values : BTreeSet Text} {value key : Text} :
    (values.insert value).contains key = true ↔ key = value ∨ values.contains key = true := by
  rw [Std.ExtTreeSet.contains_iff_mem, Std.ExtTreeSet.contains_iff_mem,
    Std.ExtTreeSet.mem_insert, Std.compare_eq_iff_eq, eq_comm]

/-- In a set that is accepted no two directories are spelled alike. -/
theorem keys_of_checkTenants {tenants : List TenantRuntimeConfig}
    (h : tenants.foldlM (checkTenant pocket) seen = .ok seen') :
    (∀ tenant ∈ tenants,
      seen.storePaths.contains (canonicalPathKey tenant.dataDirectory) = false) ∧
      tenants.Pairwise fun tenant other =>
        canonicalPathKey tenant.dataDirectory ≠ canonicalPathKey other.dataDirectory := by
  induction tenants generalizing seen with
  | nil => exact ⟨fun _ hmem => (nomatch hmem), .nil⟩
  | cons tenant tenants ih =>
    obtain ⟨next, hnext, hrest⟩ := Except.foldlM_cons_ok.mp h
    obtain ⟨named, _, hfresh, rfl⟩ := checkTenant_eq_ok.mp hnext
    obtain ⟨hlater, hpairs⟩ := ih hrest
    have hboth : ∀ later ∈ tenants,
        canonicalPathKey later.dataDirectory ≠ canonicalPathKey tenant.dataDirectory ∧
          seen.storePaths.contains (canonicalPathKey later.dataDirectory) = false := by
      intro later hmem
      have hnot := mt contains_insert_text.mpr (Bool.eq_false_iff.mp (hlater later hmem))
      exact ⟨fun heq => hnot (.inl heq), Bool.eq_false_iff.mpr fun hin => hnot (.inr hin)⟩
    refine ⟨fun later hmem => ?_, List.pairwise_cons.mpr
      ⟨fun later hmem => (hboth later hmem).1.symm, hpairs⟩⟩
    rcases List.mem_cons.mp hmem with rfl | hmem
    · exact hfresh
    · exact (hboth later hmem).2

/-- Two tenants that are accepted with some directories are accepted with theirs exactly when these
are spelled apart. -/
theorem accepted_iff_keys {directory : PathBuf}
    (hothers : (validateTenantConfigSet pocket
      [tenant, { other with dataDirectory := directory }]).Succeeds) :
    (validateTenantConfigSet pocket [tenant, other]).Succeeds ↔
      canonicalPathKey tenant.dataDirectory ≠ canonicalPathKey other.dataDirectory := by
  have hactive : [tenant, other].all TenantRuntimeConfig.inactive = false := by
    obtain ⟨_, hothers⟩ := hothers
    unfold validateTenantConfigSet at hothers
    split at hothers
    · cases hothers
    · next hactive => exact Bool.eq_false_iff.mpr hactive
  have hunfold : ∀ last : TenantRuntimeConfig, last.inactive = other.inactive →
      ((validateTenantConfigSet pocket [tenant, last]).Succeeds ↔
        ∃ seen', [tenant, last].foldlM (checkTenant pocket) .new = .ok seen') := by
    intro last hlast
    have hsame : [tenant, last].all TenantRuntimeConfig.inactive = false := by
      rw [← hactive, List.all_cons, List.all_cons, List.all_cons, List.all_cons, hlast]
    unfold validateTenantConfigSet
    rw [hsame, if_neg Bool.false_ne_true, Except.succeeds_bind]
    exact ⟨fun ⟨seen', h, _⟩ => ⟨seen', h⟩, fun ⟨seen', h⟩ => ⟨seen', h, (), rfl⟩⟩
  rw [hunfold other rfl]
  rw [hunfold { other with dataDirectory := directory } rfl] at hothers
  obtain ⟨_, hothers⟩ := hothers
  obtain ⟨first, hfirst, hlast⟩ := Except.foldlM_cons_ok.mp hothers
  obtain ⟨second, hsecond, _⟩ := Except.foldlM_cons_ok.mp hlast
  obtain ⟨named, hnamed, _, _⟩ := checkTenant_eq_ok.mp hsecond
  constructor
  · intro ⟨_, h⟩
    exact (List.pairwise_cons.mp (keys_of_checkTenants h).2).1 other List.mem_cons_self
  · intro hkeys
    have hfirstPaths : first.storePaths =
        (∅ : BTreeSet Text).insert (canonicalPathKey tenant.dataDirectory) := by
      obtain ⟨_, _, _, rfl⟩ := checkTenant_eq_ok.mp hfirst
      rfl
    have hfresh : first.storePaths.contains (canonicalPathKey other.dataDirectory) = false := by
      rw [hfirstPaths]
      refine Bool.eq_false_iff.mpr fun hin => ?_
      rcases contains_insert_text.mp hin with heq | hin
      · exact hkeys heq.symm
      · rw [Std.ExtTreeSet.contains_empty] at hin
        cases hin
    exact ⟨_, Except.foldlM_cons_ok.mpr ⟨first, hfirst, Except.foldlM_cons_ok.mpr
      ⟨_, checkTenant_eq_ok.mpr ⟨named, hnamed, hfresh, rfl⟩, rfl⟩⟩⟩

end

namespace Sample

/-- A directory of the sample. -/
def dataName : FileName := ⟨[0x64], by decide, by simp⟩

/-- Another directory of the sample. -/
def shopName : FileName := ⟨[0x73], by decide, by simp⟩

/-- The path `d`. -/
def dataPath : PathBuf := ⟨false, [.normal dataName], by decide⟩

/-- The path `d/s`. -/
def shopPath : PathBuf := ⟨false, [.normal dataName, .normal shopName], by decide⟩

/-- The path `../d`. -/
def siblingPath : PathBuf := ⟨false, [.parentDir, .normal dataName], by decide⟩

/-- A tenant of that name whose store is in that directory. -/
def tenantOf (name : String) (directory : PathBuf) : TenantRuntimeConfig :=
  ⟨name.toList, name.toList, name.toList, name.toList, none, directory, false⟩

end Sample

end Tangle
