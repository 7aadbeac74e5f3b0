import Tangle.Host.Names
import Tangle.Host.Tenants

/-!
# The tenant of a request

A process serves several tenants, each under its host. A request names a host in a header; the
headers of proxies count only if they come from a peer that is trusted. The request then reaches the
tenant whose host it names, whatever the case of its letters, and no other; a tenant that is
inactive is not reached (`host_serves_tenants`).
-/

namespace Tangle

/-! ## Headers -/

/-- The headers of a request: their names, in lower case, with their values. -/
abbrev HeaderMap : Type :=
  List (Text × List UInt8)

/-- The value of a header as text, if its bytes are visible ASCII (`HeaderValue::to_str`). -/
def headerToStr (value : List UInt8) : Option Text :=
  if value.all fun byte => (32 ≤ byte && byte < 127) || byte == 9 then
    some (value.map fun byte => Char.ofNat byte.toNat)
  else
    none

/-- The text of the first header of a name. -/
def HeaderMap.getStr (headers : HeaderMap) (name : String) : Option Text := do
  headerToStr (← headers.lookup name.toList)

/-- The texts of the address a request comes from: of its IP, and of the whole. -/
structure PeerAddr where
  ip : Text
  addr : Text

/-- Which peers are trusted, if proxies are. -/
structure TangleTrustedProxyConfig where
  enabled : Bool
  trustedPeers : List Text
  unpadded : ∀ peer ∈ trustedPeers, Text.trim peer ≠ [] ∧ Text.trim peer = peer

/-! ## The host that is asked for -/

/-- `str::trim_matches` for a quotation mark. -/
def trimQuotes (value : Text) : Text :=
  ((value.dropWhile (· == '"')).reverse.dropWhile (· == '"')).reverse

/-- The host among the parts of a `forwarded` header. -/
def forwardedHostValue (value : Text) : Option Text :=
  (value.splitOn ';').findSome? fun part =>
    match splitOnce ['='] (Text.trim part) with
    | none => none
    | some (name, value) =>
      if Text.toAsciiLowercase name = "host".toList then some (trimQuotes value) else none

/-- The host that a proxy says a request was sent to. -/
def forwardedHostHeader (headers : HeaderMap) : Option Text :=
  (headers.getStr "x-forwarded-host").or do
    forwardedHostValue (← headers.getStr "forwarded")

/-- Whether proxies are trusted and the peer is one of them. -/
def trustedProxyPeerEnabled (trustedProxy : TangleTrustedProxyConfig) (peer : PeerAddr) : Bool :=
  trustedProxy.enabled &&
    trustedProxy.trustedPeers.any fun trusted => trusted == peer.ip || trusted == peer.addr

/-- The text of the host that a request asks for. -/
def requestedHost (headers : HeaderMap) (peer : PeerAddr)
    (trustedProxy : TangleTrustedProxyConfig) :
    Option Text := do
  let forwarded :=
    if trustedProxyPeerEnabled trustedProxy peer then forwardedHostHeader headers else none
  let host ← forwarded.or (headers.getStr "host")
  let host ← (host.splitOn ',').head?
  let host := Text.trim host
  if host.isEmpty then none else some host

/-- Why no tenant answers a request. -/
inductive HostResolutionError where
  | missing
  | invalid
  | unknown
deriving DecidableEq

/-- `resolve_request_host`: the host has to be named and to be one. -/
def resolveRequestHost (headers : HeaderMap) (peer : PeerAddr)
    (trustedProxy : TangleTrustedProxyConfig) : Except HostResolutionError CanonicalHost := do
  let host ← Except.okOr (requestedHost headers peer trustedProxy) HostResolutionError.missing
  (CanonicalHost.new host).mapError fun _ => HostResolutionError.invalid

/-! ## Tenants that are served -/

/-- The configuration of a process: an accepted set of tenants, whose hosts are canonical. -/
structure TangleHostRuntimeConfigSet (pocket : PocketTypes) where
  trustedProxy : TangleTrustedProxyConfig
  tenants : List TenantRuntimeConfig
  accepted : validateTenantConfigSet pocket tenants = .ok ()
  canonical : ∀ tenant ∈ tenants, ∃ host : CanonicalHost, host.text = tenant.host

/-- The tenants of a set that are to be served. -/
def TangleHostRuntimeConfigSet.activeTenants {pocket : PocketTypes}
    (config : TangleHostRuntimeConfigSet pocket) : List TenantRuntimeConfig :=
  config.tenants.filter fun tenant => !tenant.inactive

/-- A tenant with its runtime. -/
structure TenantRuntimeEntry (R : Type) where
  config : TenantRuntimeConfig
  runtime : R

/-- The tenants that are served: each under its host, and the host of each id. -/
structure TenantRegistry (R : Type) where
  tenantsByHost : BTreeMap Text (TenantRuntimeEntry R)
  hostByTenantId : BTreeMap Text Text

namespace TenantRegistry

variable {R : Type}

/-- One step of `TenantRegistry::new`: neither the host nor the id may be there. -/
def addEntry (registry : TenantRegistry R) (entry : TenantRuntimeEntry R) :
    Except BaseRelayError (TenantRegistry R) :=
  if registry.tenantsByHost.contains entry.config.host then
    .error (.invalid s!"duplicate active tenant host: {entry.config.host.toMessage}")
  else if registry.hostByTenantId.contains entry.config.tenantId then
    .error (.invalid s!"duplicate active tenant id: {entry.config.tenantId.toMessage}")
  else
    .ok { tenantsByHost := registry.tenantsByHost.insert entry.config.host entry
          hostByTenantId := registry.hostByTenantId.insert entry.config.tenantId entry.config.host }

/-- `TenantRegistry::new`. -/
def new (entries : List (TenantRuntimeEntry R)) : Except BaseRelayError (TenantRegistry R) :=
  entries.foldlM addEntry ⟨∅, ∅⟩

/-- `TenantRegistry::tenant_by_host`. -/
def tenantByHost (registry : TenantRegistry R) (host : Text) : Option (TenantRuntimeEntry R) :=
  registry.tenantsByHost[host]?

/-- `TenantRegistry::tenant_by_id`, which goes through the host. -/
def tenantById (registry : TenantRegistry R) (tenantId : Text) : Option (TenantRuntimeEntry R) := do
  registry.tenantsByHost[← registry.hostByTenantId[tenantId]?]?

variable (opens : TenantRuntimeConfig → Except BaseRelayError R)

/-- `open_tenant_runtime`: the error names the tenant. -/
def openTenantRuntime (tenant : TenantRuntimeConfig) :
    Except BaseRelayError (TenantRuntimeEntry R) := do
  let runtime ← (opens tenant).mapError fun error =>
    let tenantId := tenant.tenantId.toMessage
    BaseRelayError.error s!"failed to open active tenant `{tenantId}`: {error.prefixedMessage}"
  return ⟨tenant, runtime⟩

/-- Opens the active tenants, chunk by chunk and so one after another. -/
def «open» {pocket : PocketTypes} (config : TangleHostRuntimeConfigSet pocket) :
    Except BaseRelayError (TenantRegistry R) := do
  let entries ← config.activeTenants.mapM (openTenantRuntime opens)
  new entries

end TenantRegistry

/-- A process that serves tenants. -/
structure TangleHostRuntime (pocket : PocketTypes) (R : Type) where
  config : TangleHostRuntimeConfigSet pocket
  registry : TenantRegistry R

namespace TangleHostRuntime

variable {R : Type} {pocket : PocketTypes}

/-- `TangleHostRuntime::open`. -/
def «open» (opens : TenantRuntimeConfig → Except BaseRelayError R)
    (config : TangleHostRuntimeConfigSet pocket) :
    Except BaseRelayError (TangleHostRuntime pocket R) := do
  return ⟨config, ← TenantRegistry.open opens config⟩

/-- **`TangleHostRuntime::tenant_for_request`**: the tenant under the host that the request
names. -/
def tenantForRequest (host : TangleHostRuntime pocket R) (headers : HeaderMap) (peer : PeerAddr) :
    Except HostResolutionError (TenantRuntimeEntry R) := do
  let name ← resolveRequestHost headers peer host.config.trustedProxy
  Except.okOr (host.registry.tenantByHost name.text) HostResolutionError.unknown

end TangleHostRuntime

/-! ## Sets of tenants that are accepted -/

section
variable {pocket : PocketTypes} {seen seen' : TenantsSeen} {tenant : TenantRuntimeConfig}
  {tenants : List TenantRuntimeConfig}

/-- A tenant that is accepted has a new id and a new host, which are kept. -/
theorem names_of_checkTenantNames (h : checkTenantNames pocket seen tenant = .ok seen') :
    seen.tenantIds.contains tenant.tenantId = false ∧ seen.hosts.contains tenant.host = false ∧
      seen'.tenantIds = seen.tenantIds.insert tenant.tenantId ∧
      seen'.hosts = seen.hosts.insert tenant.host := by
  unfold checkTenantNames at h
  obtain ⟨_, hid, h⟩ := Except.bind_eq_ok.mp h
  obtain ⟨_, _, h⟩ := Except.bind_eq_ok.mp h
  obtain ⟨_, hhost, h⟩ := Except.bind_eq_ok.mp h
  obtain ⟨_, _, h⟩ := Except.bind_eq_ok.mp h
  obtain ⟨pubkey, _, h⟩ := Except.bind_eq_ok.mp h
  obtain ⟨hidfresh, rfl⟩ := insertUnique_eq_ok.mp hid
  obtain ⟨hhostfresh, rfl⟩ := insertUnique_eq_ok.mp hhost
  cases pubkey with
  | none =>
    cases h
    exact ⟨hidfresh, hhostfresh, rfl, rfl⟩
  | some pubkey =>
    obtain ⟨_, _, h⟩ := Except.bind_eq_ok.mp h
    cases h
    exact ⟨hidfresh, hhostfresh, rfl, rfl⟩

/-- In a set that is accepted no two tenants have one id or one host. -/
theorem names_of_checkTenants (h : tenants.foldlM (checkTenant pocket) seen = .ok seen') :
    (∀ tenant ∈ tenants, seen.tenantIds.contains tenant.tenantId = false ∧
      seen.hosts.contains tenant.host = false) ∧
      tenants.Pairwise fun tenant other =>
        tenant.tenantId ≠ other.tenantId ∧ tenant.host ≠ other.host := by
  induction tenants generalizing seen with
  | nil => exact ⟨fun _ hmem => absurd hmem List.not_mem_nil, .nil⟩
  | cons tenant tenants ih =>
    obtain ⟨next, hnext, hrest⟩ := Except.foldlM_cons_ok.mp h
    obtain ⟨named, hnamed, _, rfl⟩ := checkTenant_eq_ok.mp hnext
    obtain ⟨hid, hhost, hids, hhosts⟩ := names_of_checkTenantNames hnamed
    obtain ⟨hlater, hpairs⟩ := ih hrest
    have hfresh : ∀ {values : BTreeSet Text} {value key : Text},
        (values.insert value).contains key = false → value ≠ key ∧ values.contains key = false := by
      intro values value key hnot
      have hnot := mt contains_insert_text.mpr (Bool.eq_false_iff.mp hnot)
      exact ⟨fun heq => hnot (.inl heq.symm), Bool.eq_false_iff.mpr fun hin => hnot (.inr hin)⟩
    have hboth : ∀ later ∈ tenants, (tenant.tenantId ≠ later.tenantId ∧ tenant.host ≠ later.host) ∧
        seen.tenantIds.contains later.tenantId = false ∧
          seen.hosts.contains later.host = false := by
      intro later hmem
      obtain ⟨hlaterid, hlaterhost⟩ := hlater later hmem
      have hlaterid : named.tenantIds.contains later.tenantId = false := hlaterid
      have hlaterhost : named.hosts.contains later.host = false := hlaterhost
      rw [hids] at hlaterid
      rw [hhosts] at hlaterhost
      obtain ⟨hidne, hidfresh⟩ := hfresh hlaterid
      obtain ⟨hhostne, hhostfresh⟩ := hfresh hlaterhost
      exact ⟨⟨hidne, hhostne⟩, hidfresh, hhostfresh⟩
    constructor
    · intro later hmem
      rcases List.mem_cons.mp hmem with rfl | hmem
      · exact ⟨hid, hhost⟩
      · exact (hboth later hmem).2
    · exact List.pairwise_cons.mpr ⟨fun later hmem => (hboth later hmem).1, hpairs⟩

/-- The ids and the hosts of a configured set differ, inactive tenants included. -/
theorem TangleHostRuntimeConfigSet.pairwise_names (config : TangleHostRuntimeConfigSet pocket) :
    config.tenants.Pairwise fun tenant other =>
      tenant.tenantId ≠ other.tenantId ∧ tenant.host ≠ other.host := by
  have haccepted := config.accepted
  unfold validateTenantConfigSet at haccepted
  split at haccepted
  · cases haccepted
  · obtain ⟨seen, hseen, _⟩ := Except.bind_eq_ok.mp haccepted
    exact (names_of_checkTenants hseen).2

end

namespace TenantRegistry

variable {R : Type} {registry registry' : TenantRegistry R}
    {entries done : List (TenantRuntimeEntry R)}
  {entry : TenantRuntimeEntry R}

/-- A registry finds some entries, each under its host and under its id, and no others. -/
structure Serves (registry : TenantRegistry R) (entries : List (TenantRuntimeEntry R)) : Prop where
  byHost : ∀ host entry, registry.tenantsByHost[host]? = some entry ↔
    entry ∈ entries ∧ entry.config.host = host
  byId : ∀ tenantId host, registry.hostByTenantId[tenantId]? = some host ↔
    ∃ entry ∈ entries, entry.config.tenantId = tenantId ∧ entry.config.host = host

/-- Nothing is served at first. -/
theorem serves_nil : (⟨∅, ∅⟩ : TenantRegistry R).Serves [] := by
  constructor
  · intro host entry
    simp
  · intro tenantId host
    simp

/-- An entry is added when its host and its id are new. -/
theorem addEntry_eq_ok : registry.addEntry entry = .ok registry' ↔
    registry.tenantsByHost[entry.config.host]? = none ∧
      registry.hostByTenantId[entry.config.tenantId]? = none ∧
      registry' = ⟨registry.tenantsByHost.insert entry.config.host entry,
        registry.hostByTenantId.insert entry.config.tenantId entry.config.host⟩ := by
  unfold addEntry
  rw [Std.ExtTreeMap.contains_eq_isSome_getElem?, Std.ExtTreeMap.contains_eq_isSome_getElem?]
  cases registry.tenantsByHost[entry.config.host]? with
  | some other => simp
  | none =>
    cases registry.hostByTenantId[entry.config.tenantId]? with
    | some host => simp
    | none => simp [eq_comm]

/-- An entry that is added is served beside the others. Both maps are looked up at the new key and
elsewhere. -/
theorem Serves.addEntry (h : registry.Serves done)
    (hadd : registry.addEntry entry = .ok registry') :
    registry'.Serves (done ++ [entry]) := by
  obtain ⟨hhost, hid, rfl⟩ := addEntry_eq_ok.mp hadd
  constructor
  · intro host other
    rw [BTreeMap.getElem?_insert, List.mem_append, List.mem_singleton]
    split
    · next heq =>
      subst heq
      constructor
      · rintro ⟨⟩
        exact ⟨.inr rfl, rfl⟩
      · rintro ⟨hold | rfl, hsame⟩
        · have hfound := (h.byHost _ _).mpr ⟨hold, hsame⟩
          rw [hhost] at hfound
          cases hfound
        · rfl
    · next hne =>
      rw [h.byHost]
      constructor
      · rintro ⟨hold, hsame⟩
        exact ⟨.inl hold, hsame⟩
      · rintro ⟨hold | rfl, hsame⟩
        · exact ⟨hold, hsame⟩
        · exact absurd hsame hne
  · intro tenantId host
    rw [BTreeMap.getElem?_insert]
    simp only [List.mem_append, List.mem_singleton]
    split
    · next heq =>
      subst heq
      constructor
      · rintro ⟨⟩
        exact ⟨entry, .inr rfl, rfl, rfl⟩
      · rintro ⟨other, hold | rfl, hsameid, hsame⟩
        · have hfound := (h.byId _ _).mpr ⟨other, hold, hsameid, rfl⟩
          rw [hid] at hfound
          cases hfound
        · rw [hsame]
    · next hne =>
      rw [h.byId]
      constructor
      · rintro ⟨other, hold, hsame⟩
        exact ⟨other, .inl hold, hsame⟩
      · rintro ⟨other, hold | rfl, hsameid, hsame⟩
        · exact ⟨other, hold, hsameid, hsame⟩
        · exact absurd hsameid hne

/-- Entries that are added one after another are all served. -/
theorem Serves.foldlM (h : registry.Serves done)
    (hadd : entries.foldlM TenantRegistry.addEntry registry = .ok registry') :
    registry'.Serves (done ++ entries) := by
  induction entries generalizing registry done with
  | nil =>
    cases hadd
    rw [List.append_nil]
    exact h
  | cons entry entries ih =>
    obtain ⟨next, hnext, hrest⟩ := Except.foldlM_cons_ok.mp hadd
    have hserves := ih (h.addEntry hnext) hrest
    rw [List.append_assoc] at hserves
    exact hserves

/-- What is made of entries serves them. -/
theorem serves_of_new (h : new entries = .ok registry) : registry.Serves entries :=
  serves_nil.foldlM h

/-- An id finds the entry of that id. The registry goes through the host of the id, and of the
entries only one has that host. -/
theorem Serves.tenantById_eq_some (h : registry.Serves entries) {tenantId : Text} :
    registry.tenantById tenantId = some entry ↔
      entry ∈ entries ∧ entry.config.tenantId = tenantId := by
  refine Option.bind_eq_some_iff.trans ?_
  constructor
  · rintro ⟨host, hhost, hfound⟩
    obtain ⟨other, hother, hid, hsame⟩ := (h.byId _ _).mp hhost
    have hthere := (h.byHost _ _).mpr ⟨hother, hsame⟩
    rw [hfound] at hthere
    cases hthere
    exact ⟨hother, hid⟩
  · rintro ⟨hentry, hid⟩
    exact ⟨entry.config.host, (h.byId _ _).mpr ⟨entry, hentry, hid, rfl⟩,
      (h.byHost _ _).mpr ⟨hentry, rfl⟩⟩

/-- An entry of a new id and a new host is taken. -/
theorem Serves.addEntry_succeeds (h : registry.Serves done) (hnew : ∀ other ∈ done,
    other.config.tenantId ≠ entry.config.tenantId ∧ other.config.host ≠ entry.config.host) :
    (registry.addEntry entry).Succeeds := by
  refine ⟨_, addEntry_eq_ok.mpr ⟨?_, ?_, rfl⟩⟩
  · cases hfound : registry.tenantsByHost[entry.config.host]? with
    | none => rfl
    | some other =>
      obtain ⟨hother, hsame⟩ := (h.byHost _ _).mp hfound
      exact absurd hsame (hnew other hother).2
  · cases hfound : registry.hostByTenantId[entry.config.tenantId]? with
    | none => rfl
    | some host =>
      obtain ⟨other, hother, hsame, _⟩ := (h.byId _ _).mp hfound
      exact absurd hsame (hnew other hother).1

/-- Entries of different ids and hosts are all taken. -/
theorem Serves.foldlM_succeeds (h : registry.Serves done)
    (hnew : (done ++ entries).Pairwise fun entry other =>
      entry.config.tenantId ≠ other.config.tenantId ∧ entry.config.host ≠ other.config.host) :
    (entries.foldlM TenantRegistry.addEntry registry).Succeeds := by
  induction entries generalizing registry done with
  | nil => exact ⟨registry, rfl⟩
  | cons entry entries ih =>
    obtain ⟨next, hnext⟩ := h.addEntry_succeeds fun other hother =>
      (List.pairwise_append.mp hnew).2.2 other hother entry (List.mem_cons_self ..)
    have hnew' : ((done ++ [entry]) ++ entries).Pairwise fun entry other =>
        entry.config.tenantId ≠ other.config.tenantId ∧ entry.config.host ≠ other.config.host := by
      rw [List.append_assoc]
      exact hnew
    obtain ⟨last, hlast⟩ := ih (h.addEntry hnext) hnew'
    exact ⟨last, Except.foldlM_cons_ok.mpr ⟨next, hnext, hlast⟩⟩

end TenantRegistry

/-! ## Processes that are opened -/

namespace TangleHostRuntime

variable {R : Type} {pocket : PocketTypes} {opens : TenantRuntimeConfig → Except BaseRelayError R}
  {config : TangleHostRuntimeConfigSet pocket} {host : TangleHostRuntime pocket R}

/-- A tenant is opened with the runtime that is opened for it. -/
theorem openTenantRuntime_eq_ok {tenant : TenantRuntimeConfig} {entry : TenantRuntimeEntry R} :
    TenantRegistry.openTenantRuntime opens tenant = .ok entry ↔
      entry.config = tenant ∧ opens tenant = .ok entry.runtime := by
  unfold TenantRegistry.openTenantRuntime
  rw [Except.bind_eq_ok]
  constructor
  · rintro ⟨runtime, hruntime, h⟩
    cases h
    exact ⟨rfl, Except.mapError_eq_ok.mp hruntime⟩
  · rintro ⟨rfl, hruntime⟩
    exact ⟨entry.runtime, Except.mapError_eq_ok.mpr hruntime, rfl⟩

/-- The active tenants are those of the set that are not inactive. -/
theorem mem_activeTenants {tenant : TenantRuntimeConfig} :
    tenant ∈ config.activeTenants ↔ tenant ∈ config.tenants ∧ tenant.inactive = false := by
  unfold TangleHostRuntimeConfigSet.activeTenants
  rw [List.mem_filter, Bool.not_eq_true']

/-- Tenants that were opened are those of the entries, each with what was opened for it. -/
theorem entries_of_mapM {tenants : List TenantRuntimeConfig} {entries : List (TenantRuntimeEntry R)}
    (h : tenants.mapM (TenantRegistry.openTenantRuntime opens) = .ok entries) :
    entries.map TenantRuntimeEntry.config = tenants ∧
      ∀ entry ∈ entries, opens entry.config = .ok entry.runtime := by
  induction Except.mapM_eq_ok.mp h with
  | nil => exact ⟨rfl, fun _ hmem => absurd hmem List.not_mem_nil⟩
  | cons hfirst hrest ih =>
    obtain ⟨hconfigs, hruntimes⟩ := ih (Except.mapM_eq_ok.mpr hrest)
    obtain ⟨rfl, hruntime⟩ := openTenantRuntime_eq_ok.mp hfirst
    constructor
    · rw [List.map_cons, hconfigs]
    · intro entry hentry
      rcases List.mem_cons.mp hentry with rfl | hentry
      · exact hruntime
      · exact hruntimes entry hentry

/-- What is served: the active tenants, with the runtimes that were opened for them. -/
theorem serves_of_open (h : TangleHostRuntime.open opens config = .ok host) :
    host.config = config ∧ ∃ entries : List (TenantRuntimeEntry R), host.registry.Serves entries ∧
      ∀ entry, entry ∈ entries ↔ entry.config ∈ config.tenants ∧ entry.config.inactive = false ∧
        opens entry.config = .ok entry.runtime := by
  obtain ⟨registry, hregistry, h⟩ := Except.bind_eq_ok.mp h
  cases h
  obtain ⟨entries, hentries, hnew⟩ := Except.bind_eq_ok.mp hregistry
  refine ⟨rfl, entries, TenantRegistry.serves_of_new hnew, ?_⟩
  intro entry
  obtain ⟨hconfigs, hruntimes⟩ := entries_of_mapM hentries
  constructor
  · intro hentry
    have hactive : entry.config ∈ config.activeTenants := by
      rw [← hconfigs]
      exact List.mem_map_of_mem hentry
    obtain ⟨htenant, hactive⟩ := mem_activeTenants.mp hactive
    exact ⟨htenant, hactive, hruntimes entry hentry⟩
  · rintro ⟨htenant, hactive, hopens⟩
    have hmem := mem_activeTenants.mpr ⟨htenant, hactive⟩
    rw [← hconfigs] at hmem
    obtain ⟨other, hother, hsame⟩ := List.mem_map.mp hmem
    have hruntime := hruntimes other hother
    rw [hsame, hopens] at hruntime
    obtain ⟨tenant, runtime⟩ := entry
    obtain ⟨tenant', runtime'⟩ := other
    cases hsame
    cases hruntime
    exact hother

/-- A process whose tenants can be opened is opened: its set of tenants is accepted, so none is
refused for its id or its host. -/
theorem open_succeeds : (TangleHostRuntime.open opens config).Succeeds ↔
    ∀ tenant ∈ config.tenants, tenant.inactive = false → (opens tenant).Succeeds := by
  constructor
  · rintro ⟨host, h⟩ tenant htenant hactive
    obtain ⟨registry, hregistry, _⟩ := Except.bind_eq_ok.mp h
    obtain ⟨entries, hentries, _⟩ := Except.bind_eq_ok.mp hregistry
    obtain ⟨hconfigs, hruntimes⟩ := entries_of_mapM hentries
    have hmem := mem_activeTenants.mpr ⟨htenant, hactive⟩
    rw [← hconfigs] at hmem
    obtain ⟨entry, hentry, rfl⟩ := List.mem_map.mp hmem
    exact ⟨entry.runtime, hruntimes entry hentry⟩
  · intro h
    obtain ⟨entries, hentries⟩ : (config.activeTenants.mapM
        (TenantRegistry.openTenantRuntime opens)).Succeeds := by
      refine Except.mapM_succeeds fun tenant hmem => ?_
      obtain ⟨htenant, hactive⟩ := mem_activeTenants.mp hmem
      obtain ⟨runtime, hruntime⟩ := h tenant htenant hactive
      exact ⟨⟨tenant, runtime⟩, openTenantRuntime_eq_ok.mpr ⟨rfl, hruntime⟩⟩
    have hdiffer : entries.Pairwise fun entry other =>
        entry.config.tenantId ≠ other.config.tenantId ∧ entry.config.host ≠ other.config.host := by
      have hactive : config.activeTenants.Pairwise fun tenant other =>
          tenant.tenantId ≠ other.tenantId ∧ tenant.host ≠ other.host :=
        config.pairwise_names.sublist List.filter_sublist
      rw [← (entries_of_mapM hentries).1] at hactive
      exact List.pairwise_map.mp hactive
    obtain ⟨registry, hregistry⟩ := TenantRegistry.serves_nil.foldlM_succeeds hdiffer
    refine ⟨⟨config, registry⟩, Except.bind_eq_ok.mpr ⟨registry, ?_, rfl⟩⟩
    exact Except.bind_eq_ok.mpr ⟨entries, hentries, hregistry⟩

end TangleHostRuntime

section
variable {R : Type} {pocket : PocketTypes} {headers headers' : HeaderMap} {peer : PeerAddr}
  {trustedProxy : TangleTrustedProxyConfig} {host : CanonicalHost}

/-- A request resolves to the host whose text is what it names in lower case. -/
theorem resolveRequestHost_eq_ok : resolveRequestHost headers peer trustedProxy = .ok host ↔
    ∃ named, requestedHost headers peer trustedProxy = some named ∧
      Text.toAsciiLowercase named = host.text := by
  unfold resolveRequestHost
  rw [Except.bind_eq_ok]
  refine exists_congr fun named => and_congr Except.okOr_eq_ok ?_
  rw [Except.mapError_eq_ok]
  exact ⟨CanonicalHost.text_of_new, CanonicalHost.new_of_lowercase host⟩

/-- To a peer that is not trusted only the header of the host counts. -/
theorem requestedHost_of_untrusted (hpeer : trustedProxyPeerEnabled trustedProxy peer = false)
    (hsame : headers'.getStr "host" = headers.getStr "host") :
    requestedHost headers' peer trustedProxy = requestedHost headers peer trustedProxy := by
  unfold requestedHost
  rw [hpeer, hsame]
  rfl

end

/-- **Requests reach the tenant whose host they name.** A process whose set of tenants was accepted
is opened exactly when each active tenant can be opened. Then an id finds the active tenant of that
id with the runtime that was opened for it, and nothing else; the id of an inactive tenant finds
nothing. A request is answered by the runtime of a tenant exactly when the tenant is active and the
request names its host, whatever the case of the letters. What a peer that is not trusted sends as
the headers of a proxy makes no difference. -/
theorem host_serves_tenants {R : Type} {pocket : PocketTypes}
    (opens : TenantRuntimeConfig → Except BaseRelayError R)
    (config : TangleHostRuntimeConfigSet pocket) :
    ((TangleHostRuntime.open opens config).Succeeds ↔
      ∀ tenant ∈ config.tenants, tenant.inactive = false → (opens tenant).Succeeds) ∧
    ∀ host, TangleHostRuntime.open opens config = .ok host → ∀ headers peer,
      (∀ tenantId entry, host.registry.tenantById tenantId = some entry ↔
        entry.config ∈ config.tenants ∧ entry.config.tenantId = tenantId ∧
          entry.config.inactive = false ∧ opens entry.config = .ok entry.runtime) ∧
      (∀ tenant ∈ config.tenants, tenant.inactive = true →
        host.registry.tenantById tenant.tenantId = none) ∧
      (∀ entry, host.tenantForRequest headers peer = .ok entry ↔
        entry.config ∈ config.tenants ∧ entry.config.inactive = false ∧
          opens entry.config = .ok entry.runtime ∧
          ∃ named, requestedHost headers peer config.trustedProxy = some named ∧
            Text.toAsciiLowercase named = entry.config.host) ∧
      (trustedProxyPeerEnabled config.trustedProxy peer = false → ∀ headers' : HeaderMap,
        headers'.getStr "host" = headers.getStr "host" →
          host.tenantForRequest headers' peer = host.tenantForRequest headers peer) := by
  refine ⟨TangleHostRuntime.open_succeeds, ?_⟩
  intro host hopen headers peer
  obtain ⟨rfl, entries, hserves, hentries⟩ := TangleHostRuntime.serves_of_open hopen
  have hbyId : ∀ tenantId entry, host.registry.tenantById tenantId = some entry ↔
      entry.config ∈ host.config.tenants ∧ entry.config.tenantId = tenantId ∧
        entry.config.inactive = false ∧ opens entry.config = .ok entry.runtime := by
    intro tenantId entry
    rw [hserves.tenantById_eq_some, hentries]
    tauto
  refine ⟨hbyId, ?_, ?_, ?_⟩
  · intro tenant htenant hinactive
    by_contra hfound
    obtain ⟨entry, hentry⟩ := Option.ne_none_iff_exists'.mp hfound
    obtain ⟨hother, hid, hactive, _⟩ := (hbyId _ _).mp hentry
    -- the ids of the set differ, so the entry would be of the inactive tenant itself
    have hids : (host.config.tenants.map TenantRuntimeConfig.tenantId).Nodup :=
      List.pairwise_map.mpr (host.config.pairwise_names.imp And.left)
    have hsame : entry.config = tenant := List.inj_on_of_nodup_map hids hother htenant hid
    rw [hsame, hinactive] at hactive
    cases hactive
  · intro entry
    unfold TangleHostRuntime.tenantForRequest
    rw [Except.bind_eq_ok]
    constructor
    · rintro ⟨name, hname, hfound⟩
      obtain ⟨named, hnamed, hlower⟩ := resolveRequestHost_eq_ok.mp hname
      obtain ⟨hentry, hhost⟩ := (hserves.byHost _ _).mp (Except.okOr_eq_ok.mp hfound)
      obtain ⟨htenant, hactive, hruntime⟩ := (hentries _).mp hentry
      exact ⟨htenant, hactive, hruntime, named, hnamed, hlower.trans hhost.symm⟩
    · rintro ⟨htenant, hactive, hruntime, named, hnamed, hlower⟩
      obtain ⟨name, hname⟩ := host.config.canonical entry.config htenant
      refine ⟨name, resolveRequestHost_eq_ok.mpr ⟨named, hnamed, hlower.trans hname.symm⟩, ?_⟩
      refine Except.okOr_eq_ok.mpr ((hserves.byHost _ _).mpr ⟨?_, hname.symm⟩)
      exact (hentries _).mpr ⟨htenant, hactive, hruntime⟩
  · intro hpeer headers' hsame
    unfold TangleHostRuntime.tenantForRequest resolveRequestHost
    rw [requestedHost_of_untrusted hpeer hsame]

namespace Sample

/-- A text that is taken as it is is the text of a host. -/
theorem canonical_of_text {text : Text} (h : canonicalHostText text = .ok text) :
    ∃ host : CanonicalHost, host.text = text := by
  obtain ⟨name, _, hname⟩ := canonicalHostText_eq_ok.mp h
  exact ⟨⟨text, name, hname.symm⟩, rfl⟩

/-- A shop that is served, and one that is not. -/
def twoShops : List TenantRuntimeConfig :=
  [tenantOf "a.example" dataPath, { tenantOf "b.example" shopPath with inactive := true }]

/-- The hosts of the shops are canonical. -/
theorem twoShops_canonical :
    ∀ tenant ∈ twoShops, ∃ host : CanonicalHost, host.text = tenant.host := by
  intro tenant htenant
  simp only [twoShops, List.mem_cons, List.not_mem_nil, or_false] at htenant
  rcases htenant with rfl | rfl
  · exact canonical_of_text (by decide +kernel)
  · exact canonical_of_text (by decide +kernel)

/-- The shops are accepted. -/
theorem twoShops_accepted : validateTenantConfigSet pocket twoShops = .ok () := by
  decide +kernel

/-- A process with the two shops that trusts one proxy. -/
def shops : TangleHostRuntimeConfigSet pocket where
  trustedProxy := ⟨true, ["10.0.0.1".toList], by decide⟩
  tenants := twoShops
  accepted := twoShops_accepted
  canonical := twoShops_canonical

/-- A header by its name and its value. -/
def headerOf (name value : String) : Text × List UInt8 :=
  (name.toList, value.toList.map fun c => UInt8.ofNat c.toNat)

/-- A request that a stranger claims to have forwarded for another shop. -/
def forwardedRequest : HeaderMap :=
  [headerOf "host" "A.Example", headerOf "x-forwarded-host" "b.example"]

/-- A peer that is no trusted proxy. -/
def stranger : PeerAddr :=
  ⟨"10.0.0.2".toList, "10.0.0.2:443".toList⟩

end Sample

open Sample in
/-- The request of a stranger reaches the shop that its header of the host names, which its id finds
too; the id of the other shop finds nothing. -/
theorem host_serves_shops : ∃ host, TangleHostRuntime.open (fun tenant => .ok tenant.host) shops =
    .ok host ∧ host.tenantForRequest forwardedRequest stranger =
      .ok ⟨tenantOf "a.example" dataPath, "a.example".toList⟩ ∧
    host.registry.tenantById "a.example".toList =
      some ⟨tenantOf "a.example" dataPath, "a.example".toList⟩ ∧
    host.registry.tenantById "b.example".toList = none := by
  obtain ⟨hopens, hserved⟩ :=
    host_serves_tenants (fun tenant : TenantRuntimeConfig => .ok tenant.host) shops
  obtain ⟨host, hhost⟩ := hopens.mpr fun tenant _ _ => ⟨tenant.host, rfl⟩
  obtain ⟨hbyId, hinactive, hreached, _⟩ := hserved host hhost forwardedRequest stranger
  have hshop : tenantOf "a.example" dataPath ∈ shops.tenants := List.mem_cons_self
  have hother : { tenantOf "b.example" shopPath with inactive := true } ∈ shops.tenants :=
    List.mem_cons_of_mem _ List.mem_cons_self
  refine ⟨host, hhost, (hreached _).mpr ⟨hshop, rfl, rfl, "A.Example".toList, ?_, ?_⟩,
    (hbyId _ _).mpr ⟨hshop, rfl, rfl, rfl⟩, hinactive _ hother rfl⟩
  · decide +kernel
  · decide +kernel

end Tangle
