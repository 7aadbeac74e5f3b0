import Mathlib.Logic.Relation
import Tangle.Session.Replies

/-!
# Permits of subscriptions

A host gives one permit for each live subscription of its sessions, of which it has a bounded
number. However the sessions' requests, closes and ends interleave, a session holds permits for
exactly its live subscriptions and the host counts all of them (`permits_exact`).
-/

namespace Tangle

/-! ## A session's account -/

/-- A session of a host with limits holds one permit for each of its subscriptions, and not too many
of them. -/
structure TangleWebSocketSession.Accounted (session : TangleWebSocketSession) : Prop where
  limited : session.resourceLimited = true
  permits : session.subscriptionPermits =
    session.subscriptions.subscriptions.map fun _ _ => RelaySubscriptionPermit.mk 1
  within : session.subscriptions.subscriptions.size ≤ session.subscriptions.maxSubscriptions

variable {σ : Type} {session : TangleWebSocketSession} {resources : RelayResourceLimiter}
  {subscriptionId : SubscriptionId} {filters : List PocketFilter} {world after : SessionWorld σ}
  {runtime : RelayRuntimeHandle σ} {req : ReqMessage} {replies : Replies} {now : UnixTimestamp}

/-- A session has a permit for a subscription exactly when it has the subscription. -/
theorem TangleWebSocketSession.Accounted.contains_permits (h : session.Accounted) :
    session.subscriptionPermits.contains subscriptionId =
      session.subscriptions.contains subscriptionId := by
  rw [h.permits, Std.ExtTreeMap.contains_map]
  rfl

/-- What a request does to a session and to the counter of its host. -/
inductive ReqEffect (session : TangleWebSocketSession) (resources : RelayResourceLimiter)
    (subscriptionId : SubscriptionId) : TangleWebSocketSession → RelayResourceLimiter → Prop
  | unchanged : ReqEffect session resources subscriptionId session resources
  | resubscribed {filters : List PocketFilter}
      (live : session.subscriptions.contains subscriptionId = true) :
      ReqEffect session resources subscriptionId
        { session with subscriptions := { session.subscriptions with
            subscriptions := session.subscriptions.subscriptions.insert subscriptionId filters } }
        resources
  | opened {filters : List PocketFilter}
      (fresh : session.subscriptions.contains subscriptionId = false)
      (room : session.subscriptions.subscriptions.size < session.subscriptions.maxSubscriptions)
      (hostRoom : resources.activeSubscriptions + 1 ≤ resources.maxSubscriptions)
      (small : resources.activeSubscriptions + 1 ≤ u64Max) :
      ReqEffect session resources subscriptionId
        { session with
          subscriptions := { session.subscriptions with
            subscriptions := session.subscriptions.subscriptions.insert subscriptionId filters }
          subscriptionPermits := session.subscriptionPermits.insert subscriptionId ⟨1⟩ }
        { resources with activeSubscriptions := resources.activeSubscriptions + 1 }

/-- What a close does. -/
inductive CloseEffect (session : TangleWebSocketSession) (resources : RelayResourceLimiter)
    (subscriptionId : SubscriptionId) : TangleWebSocketSession → RelayResourceLimiter → Prop
  | unchanged : CloseEffect session resources subscriptionId session resources
  | ended (live : session.subscriptions.contains subscriptionId = true) :
      CloseEffect session resources subscriptionId
        { session with
          subscriptions := { session.subscriptions with
            subscriptions := session.subscriptions.subscriptions.erase subscriptionId }
          subscriptionPermits := session.subscriptionPermits.erase subscriptionId }
        (resources.release ⟨1⟩)

/-! ## What a message does -/

/-- A counter goes up exactly when the sum is within the limit and is a number of the machine. -/
theorem incrementWithLimit_eq_ok {counter amount limit next : Nat} {message : String} :
    incrementWithLimit counter amount limit message = .ok next ↔
      next = counter + amount ∧ counter + amount ≤ limit ∧ counter + amount ≤ u64Max := by
  unfold incrementWithLimit
  split_ifs with hwraps hlimit
  · exact ⟨fun h => (nomatch h), fun h => absurd h.2.2 (not_le.mpr hwraps)⟩
  · exact ⟨fun h => (nomatch h), fun h => absurd h.2.1 (not_le.mpr hlimit)⟩
  · refine ⟨fun h => ?_, fun h => congrArg _ h.1.symm⟩
    cases h
    exact ⟨rfl, not_lt.mp hlimit, not_lt.mp hwraps⟩

/-- Opening one subscription counts one more. -/
theorem tryOpenSubscriptions_one {permit : RelaySubscriptionPermit} {next : RelayResourceLimiter}
    (h : resources.tryOpenSubscriptions 1 = .ok (permit, next)) :
    permit = ⟨1⟩ ∧
      next = { resources with activeSubscriptions := resources.activeSubscriptions + 1 } ∧
      resources.activeSubscriptions + 1 ≤ resources.maxSubscriptions ∧
      resources.activeSubscriptions + 1 ≤ u64Max := by
  unfold RelayResourceLimiter.tryOpenSubscriptions at h
  rw [if_neg Nat.one_ne_zero] at h
  obtain ⟨active, hactive, h⟩ := Except.bind_eq_ok.mp h
  obtain ⟨rfl, hlimit, hsmall⟩ := incrementWithLimit_eq_ok.mp hactive
  cases h
  exact ⟨rfl, rfl, hlimit, hsmall⟩

/-- A new subscription that may be opened has room in the set. -/
theorem room_of_ensureCanSubscribe
    (h : session.subscriptions.ensureCanSubscribe subscriptionId filters = .ok ())
    (hfresh : session.subscriptions.contains subscriptionId = false) :
    session.subscriptions.subscriptions.size < session.subscriptions.maxSubscriptions := by
  unfold LiveSubscriptionSet.ensureCanSubscribe at h
  rw [hfresh, Bool.not_false, Bool.true_and] at h
  split_ifs at h with hempty hfull
  exact not_le.mp fun hle => hfull (decide_eq_true hle)

/-- A subscription that is kept takes one permit, unless its id is live already. -/
theorem effect_of_openSubscription {result : Except BaseRelayError Unit}
    (haccounted : world.session.Accounted)
    (hcan : world.session.subscriptions.ensureCanSubscribe subscriptionId filters = .ok ())
    (h : world.openSubscription subscriptionId filters = (result, after)) :
    ReqEffect world.session world.resources subscriptionId after.session after.resources ∧
      (result ≠ .ok () → after.session = world.session ∧ after.resources = world.resources) := by
  have hsubscribe : world.session.subscriptions.subscribe subscriptionId filters =
      .ok { world.session.subscriptions with
        subscriptions :=
          world.session.subscriptions.subscriptions.insert subscriptionId filters } := by
    rw [LiveSubscriptionSet.subscribe, hcan]
    rfl
  unfold SessionWorld.openSubscription SessionWorld.hostPermit at h
  rw [hsubscribe, haccounted.limited, if_pos rfl] at h
  cases hlive : world.session.subscriptions.contains subscriptionId with
  | true =>
    rw [hlive] at h
    cases h
    exact ⟨.resubscribed hlive, fun hne => absurd rfl hne⟩
  | false =>
    rw [hlive, if_neg Bool.false_ne_true] at h
    cases hopen : world.resources.tryOpenSubscriptions 1 with
    | error error =>
      rw [hopen] at h
      cases h
      exact ⟨.unchanged, fun _ => ⟨rfl, rfl⟩⟩
    | ok opened =>
      obtain ⟨permit, next⟩ := opened
      obtain ⟨rfl, rfl, hlimit, hsmall⟩ := tryOpenSubscriptions_one hopen
      have hnone : world.session.subscriptionPermits[subscriptionId]? = none := by
        rw [haccounted.permits, Std.ExtTreeMap.getElem?_map,
          LiveSubscriptionSet.contains_eq_false.mp hlive]
        rfl
      rw [hopen] at h
      cases h
      refine ⟨?_, fun hne => absurd rfl hne⟩
      have heffect := @ReqEffect.opened _ _ _ filters hlive
        (room_of_ensureCanSubscribe hcan hlive) hlimit hsmall
      unfold SessionWorld.keepPermit SessionWorld.dropPermit
      dsimp only
      rw [hnone]
      exact heffect

/-- The request has failed, or its reply ends with `CLOSED`. -/
def IsRefusal (subscriptionId : SubscriptionId) (replies : Replies) : Prop :=
  ∀ messages, replies = .ok messages →
    ∃ text, messages.getLast? = some (.relay (.closed subscriptionId text))

/-- A query leaves the counter alone. -/
theorem resources_of_queryReq {found : Except BaseRelayError BaseRelayQueryReport}
    (h : world.queryReq runtime req = (found, after)) : after.resources = world.resources := by
  unfold SessionWorld.queryReq at h
  split at h <;> cases h <;> rfl

/-- A reply that ends with EOSE refuses nothing. -/
theorem not_isRefusal_of_eose {messages : List RuntimeRelayMessage}
    (hlast : messages.getLast? = some (.relay (.eose subscriptionId))) :
    ¬ IsRefusal subscriptionId (.ok messages) := by
  intro h
  obtain ⟨text, hclosed⟩ := h messages rfl
  cases hlast.symm.trans hclosed

/-- **What the answer to a REQ does to the permits**: nothing, or it opens the subscription with its
permit; and a refusal does nothing. Case by case along the handler. -/
theorem effect_of_answerReq (haccounted : world.session.Accounted)
    (hsearch : req.searchPresent = false) (h : world.answerReq runtime req = (replies, after)) :
    ReqEffect world.session world.resources req.subscriptionId after.session
        after.resources ∧
      (IsRefusal req.subscriptionId replies →
        after.session = world.session ∧ after.resources = world.resources) := by
  unfold SessionWorld.answerReq at h
  dsimp only at h
  split at h
  · cases h
    exact ⟨.unchanged, fun _ => ⟨rfl, rfl⟩⟩
  · next hcan =>
    rcases hquery : world.queryReq runtime req with ⟨found, searched⟩
    rw [hquery] at h
    have hsession := session_of_queryReq hquery
    have hresources := resources_of_queryReq hquery
    cases found with
    | error error =>
      cases h
      rw [hsession, hresources]
      exact ⟨.unchanged, fun _ => ⟨rfl, rfl⟩⟩
    | ok report =>
      dsimp only at h
      split at h
      · next hsubscribe =>
        obtain ⟨hincomplete, hopen⟩ := Bool.and_eq_true_iff.mp hsubscribe
        have hended := (endsFor_of_query hsearch hquery).ended (by simpa using hopen)
        rw [if_pos hincomplete, ← hsession] at hcan
        rw [← hsession] at haccounted ⊢
        rw [← hresources]
        split at h
        · next error opened hopens =>
          cases h
          obtain ⟨heffect, hfailed⟩ := effect_of_openSubscription haccounted hcan hopens
          exact ⟨heffect, fun _ => hfailed fun heq => (nomatch heq)⟩
        · next opened hopens =>
          cases h
          obtain ⟨heffect, _⟩ := effect_of_openSubscription haccounted hcan hopens
          exact ⟨heffect, fun hrefusal => absurd hrefusal (not_isRefusal_of_eose hended)⟩
      · cases h
        rw [hsession, hresources]
        exact ⟨.unchanged, fun _ => ⟨rfl, rfl⟩⟩

/-- What a request does; when it is refused it does nothing. -/
theorem effect_of_handleReq (haccounted : world.session.Accounted)
    (h : world.handleReq runtime req now = (replies, after)) :
    ReqEffect world.session world.resources req.subscriptionId after.session
        after.resources ∧
      (IsRefusal req.subscriptionId replies →
        after.session = world.session ∧ after.resources = world.resources) := by
  unfold SessionWorld.handleReq at h
  split at h
  · cases h
    exact ⟨.unchanged, fun _ => ⟨rfl, rfl⟩⟩
  · split at h
    · cases h
      exact ⟨.unchanged, fun _ => ⟨rfl, rfl⟩⟩
    · next hsearch =>
      split at h
      · next limited hlimited =>
        cases h
        have hsession : after.session = world.session :=
          (congrArg (fun result => result.2.session) hlimited).symm
        have hresources : after.resources = world.resources :=
          (congrArg (fun result => result.2.resources) hlimited).symm
        rw [hsession, hresources]
        exact ⟨.unchanged, fun _ => ⟨rfl, rfl⟩⟩
      · next limited hlimited =>
        have hsession : limited.session = world.session :=
          (congrArg (fun result => result.2.session) hlimited).symm
        have hresources : limited.resources = world.resources :=
          (congrArg (fun result => result.2.resources) hlimited).symm
        have habsent : req.searchPresent = false := by
          unfold BaseRelay.unsupportedSearchPresentClosed at hsearch
          split_ifs at hsearch with hpresent
          exact Bool.eq_false_iff.mpr hpresent
        rw [← hsession] at haccounted ⊢
        rw [← hresources]
        exact effect_of_answerReq haccounted habsent h

/-- What a close does: it ends the subscription and gives its permit back. -/
theorem effect_of_handleClose (haccounted : world.session.Accounted)
    (h : world.handleClose subscriptionId = (replies, after)) :
    CloseEffect world.session world.resources subscriptionId after.session
      after.resources := by
  unfold SessionWorld.handleClose LiveSubscriptionSet.close at h
  split at h
  · cases h
    exact .unchanged
  · cases hlive : world.session.subscriptions.contains subscriptionId with
    | false =>
      rw [hlive] at h
      cases h
      exact .unchanged
    | true =>
      have hpermit : world.session.subscriptionPermits[subscriptionId]? = some ⟨1⟩ := by
        have hsome : world.session.subscriptions.subscriptions[subscriptionId]?.isSome = true := by
          rw [← Std.ExtTreeMap.contains_eq_isSome_getElem?]
          exact hlive
        obtain ⟨held, hheld⟩ := Option.isSome_iff_exists.mp hsome
        rw [haccounted.permits, Std.ExtTreeMap.getElem?_map, hheld]
        rfl
      rw [hlive, if_pos rfl] at h
      cases h
      have hended := @CloseEffect.ended _ world.resources _ hlive
      unfold SessionWorld.dropPermit
      dsimp only
      rw [hpermit]
      exact hended

/-! ## The sessions of a host -/

/-- The open sessions of a host, and its limits. -/
structure Host where
  sessions : List TangleWebSocketSession
  resources : RelayResourceLimiter

/-- The session has just been opened on a host with limits. -/
structure TangleWebSocketSession.Fresh (session : TangleWebSocketSession) : Prop where
  limited : session.resourceLimited = true
  subscriptions : session.subscriptions.subscriptions = ∅
  permits : session.subscriptionPermits = ∅

/-- What the sessions of a host do, in any order: one is opened, one handles a message on what they
share, or one ends. -/
inductive HostStep : Host → Host → Prop
  | opens {sessions : List TangleWebSocketSession} {resources : RelayResourceLimiter}
      {session : TangleWebSocketSession} (fresh : session.Fresh) :
      HostStep ⟨sessions, resources⟩ ⟨session :: sessions, resources⟩
  | handles {σ : Type} {before after : List TangleWebSocketSession}
      {session : TangleWebSocketSession} (step : SessionStep σ) :
      HostStep ⟨before ++ session :: after, step.resources⟩
        ⟨before ++ (step.handle session).2.session :: after, (step.handle session).2.resources⟩
  | ends {σ : Type} {before after : List TangleWebSocketSession} (world : SessionWorld σ) :
      HostStep ⟨before ++ world.session :: after, world.resources⟩
        ⟨before ++ after, world.closeAllSubscriptions.2.resources⟩

/-- The states of a host that may hold so many subscriptions. -/
def Host.Reachable (maxSubscriptions : Nat) (host : Host) : Prop :=
  Relation.ReflTransGen HostStep ⟨[], .new maxSubscriptions⟩ host

/-- The number of live subscriptions. -/
def liveCount (sessions : List TangleWebSocketSession) : Nat :=
  (sessions.map fun session => session.subscriptions.subscriptions.size).sum

/-- The host has given one permit for each live subscription, and no more than it may. -/
structure Host.Accounted (maxSubscriptions : Nat) (host : Host) : Prop where
  sessions : ∀ session ∈ host.sessions, session.Accounted
  active : host.resources.activeSubscriptions = liveCount host.sessions
  bound : host.resources.maxSubscriptions = maxSubscriptions
  within : host.resources.activeSubscriptions ≤ maxSubscriptions
  small : host.resources.activeSubscriptions ≤ u64Max

section
variable {before' after' : List TangleWebSocketSession} {session' : TangleWebSocketSession}
  {resources' : RelayResourceLimiter} {maxSubscriptions : Nat}

/-- What the sessions of a host have open, one of them taken out. -/
theorem liveCount_append_cons : liveCount (before' ++ session :: after') =
    liveCount before' + session.subscriptions.subscriptions.size + liveCount after' := by
  unfold liveCount
  rw [List.map_append, List.map_cons, List.sum_append, List.sum_cons]
  omega

/-- What two parts of the sessions have open is what both have. -/
theorem liveCount_append : liveCount
    (before' ++ after') = liveCount before' + liveCount after' := by
  unfold liveCount
  rw [List.map_append, List.sum_append]

/-- The session's account is kept, and the counter of the host goes with the number of its
subscriptions. -/
structure KeepsAccount (session : TangleWebSocketSession) (resources : RelayResourceLimiter)
    (session' : TangleWebSocketSession) (resources' : RelayResourceLimiter) : Prop where
  accounted : session'.Accounted
  bound : resources'.maxSubscriptions = resources.maxSubscriptions
  count : resources'.activeSubscriptions + session.subscriptions.subscriptions.size =
    resources.activeSubscriptions + session'.subscriptions.subscriptions.size
  within : resources'.activeSubscriptions ≤
    max resources.activeSubscriptions resources.maxSubscriptions
  small : resources'.activeSubscriptions ≤ u64Max

/-- A session that nothing happens to keeps its account. -/
theorem KeepsAccount.refl (haccounted : session.Accounted)
    (hsmall : resources.activeSubscriptions ≤ u64Max) :
    KeepsAccount session resources session resources :=
  ⟨haccounted, rfl, rfl, le_max_left _ _, hsmall⟩

/-- What a REQ does keeps the account. -/
theorem ReqEffect.keepsAccount
    (h : ReqEffect session resources subscriptionId session' resources')
    (haccounted : session.Accounted) (hsmall : resources.activeSubscriptions ≤ u64Max) :
    KeepsAccount session resources session' resources' := by
  cases h with
  | unchanged => exact .refl haccounted hsmall
  | @resubscribed filters live =>
    have hsize : (session.subscriptions.subscriptions.insert subscriptionId filters).size =
        session.subscriptions.subscriptions.size :=
      Std.ExtTreeMap.size_insert.trans (if_pos live)
    refine ⟨⟨haccounted.limited, ?_, hsize ▸ haccounted.within⟩, rfl, congrArg _ hsize.symm,
      le_max_left _ _, hsmall⟩
    rw [haccounted.permits]
    refine BTreeMap.ext fun id => ?_
    rw [Std.ExtTreeMap.getElem?_map, Std.ExtTreeMap.getElem?_map, BTreeMap.getElem?_insert]
    split
    · next heq =>
      subst heq
      have hsome := Std.ExtTreeMap.contains_eq_isSome_getElem?.symm.trans live
      obtain ⟨held, hheld⟩ := Option.isSome_iff_exists.mp hsome
      rw [hheld]
      rfl
    · rfl
  | @opened filters fresh room hostRoom small =>
    have hsize : (session.subscriptions.subscriptions.insert subscriptionId filters).size =
        session.subscriptions.subscriptions.size + 1 :=
      Std.ExtTreeMap.size_insert.trans (if_neg (Bool.eq_false_iff.mp fresh))
    refine ⟨⟨haccounted.limited, ?_, hsize ▸ room⟩, rfl, ?_, hostRoom.trans (le_max_right _ _),
      small⟩
    · rw [haccounted.permits]
      refine BTreeMap.ext fun id => ?_
      rw [Std.ExtTreeMap.getElem?_map, BTreeMap.getElem?_insert, BTreeMap.getElem?_insert,
        Std.ExtTreeMap.getElem?_map]
      split <;> rfl
    · dsimp only
      omega

/-- Giving a permit back lowers the counter, which counts it. -/
theorem release_one (hpos : 0 < resources.activeSubscriptions)
    (hsmall : resources.activeSubscriptions ≤ u64Max) : resources.release ⟨1⟩ =
      { resources with activeSubscriptions := resources.activeSubscriptions - 1 } := by
  unfold u64Max at hsmall
  have hwrap : (resources.activeSubscriptions + 2 ^ 64 - 1) % 2 ^ 64 =
      resources.activeSubscriptions - 1 := by
    omega
  rw [RelayResourceLimiter.release, hwrap]

/-- What a CLOSE does keeps the account. -/
theorem CloseEffect.keepsAccount
    (h : CloseEffect session resources subscriptionId session' resources')
    (haccounted : session.Accounted)
    (hcounted : session.subscriptions.subscriptions.size ≤ resources.activeSubscriptions)
    (hsmall : resources.activeSubscriptions ≤ u64Max) :
    KeepsAccount session resources session' resources' := by
  cases h with
  | unchanged => exact .refl haccounted hsmall
  | ended live =>
    have hsize : (session.subscriptions.subscriptions.erase subscriptionId).size =
        session.subscriptions.subscriptions.size - 1 :=
      Std.ExtTreeMap.size_erase.trans (if_pos live)
    have hpos : 0 < session.subscriptions.subscriptions.size := by
      refine Nat.pos_of_ne_zero fun hzero => ?_
      rw [LiveSubscriptionSet.contains, Std.ExtTreeMap.eq_empty_iff_size_eq_zero.mpr hzero] at live
      simp at live
    have hwithin := haccounted.within
    rw [release_one (hpos.trans_le hcounted) hsmall]
    refine ⟨⟨haccounted.limited, ?_, hsize ▸ (Nat.sub_le _ _).trans hwithin⟩, rfl, ?_,
      (Nat.sub_le _ _).trans (le_max_left _ _), (Nat.sub_le _ _).trans hsmall⟩
    · rw [haccounted.permits]
      refine BTreeMap.ext fun id => ?_
      rw [Std.ExtTreeMap.getElem?_map, BTreeMap.getElem?_erase, BTreeMap.getElem?_erase,
        Std.ExtTreeMap.getElem?_map]
      split <;> rfl
    · dsimp only
      omega

/-- A request for a live id takes no permit and gives none back. -/
theorem ReqEffect.of_live (h : ReqEffect session resources subscriptionId session' resources')
    (hlive : session.subscriptions.contains subscriptionId = true) :
    session'.subscriptionPermits = session.subscriptionPermits ∧ resources' = resources := by
  cases h with
  | unchanged => exact ⟨rfl, rfl⟩
  | resubscribed _ => exact ⟨rfl, rfl⟩
  | opened fresh => exact absurd hlive (Bool.eq_false_iff.mp fresh)

/-- Ending a session gives back one permit for each of its subscriptions. -/
theorem release_all {permits : List (SubscriptionId × RelaySubscriptionPermit)}
    (hpermits : ∀ permit ∈ permits, permit.2 = ⟨1⟩)
    (hcounted : permits.length ≤ resources.activeSubscriptions)
    (hsmall : resources.activeSubscriptions ≤ u64Max) :
    permits.foldl (fun resources permit => resources.release permit.2) resources =
      { resources with
        activeSubscriptions := resources.activeSubscriptions - permits.length } := by
  induction permits generalizing resources with
  | nil => rfl
  | cons permit rest ih =>
    rw [List.length_cons] at hcounted
    rw [List.foldl_cons, hpermits permit (List.mem_cons_self ..),
      release_one (by omega) hsmall,
      ih (fun other hother => hpermits other (List.mem_cons_of_mem _ hother)) (by dsimp only; omega)
        (by dsimp only; omega), List.length_cons]
    dsimp only
    congr 1
    omega

/-- A session that ends gives back a permit for each subscription that it had. -/
theorem resources_of_closeAll (haccounted : world.session.Accounted)
    (hcounted : world.session.subscriptions.subscriptions.size ≤
      world.resources.activeSubscriptions)
    (hsmall : world.resources.activeSubscriptions ≤ u64Max) :
    world.closeAllSubscriptions.2.resources = { world.resources with
      activeSubscriptions := world.resources.activeSubscriptions -
        world.session.subscriptions.subscriptions.size } := by
  have hlength : world.session.subscriptionPermits.toList.length =
      world.session.subscriptions.subscriptions.size := by
    rw [Std.ExtTreeMap.length_toList, haccounted.permits, Std.ExtTreeMap.size_map]
  have hones : ∀ permit ∈ world.session.subscriptionPermits.toList, permit.2 = ⟨1⟩ := by
    intro permit hpermit
    have hheld := BTreeMap.mem_toList.mp hpermit
    rw [haccounted.permits, Std.ExtTreeMap.getElem?_map] at hheld
    obtain ⟨_, _, hone⟩ := Option.map_eq_some_iff.mp hheld
    exact hone.symm
  have hrelease := release_all hones (hlength ▸ hcounted) hsmall
  rw [hlength] at hrelease
  exact hrelease

/-! ## Every run -/

/-- A message of a session, on what the sessions share. -/
theorem SessionStep.keepsAccount {step : SessionStep σ} (haccounted : session.Accounted)
    (hcounted : session.subscriptions.subscriptions.size ≤ step.resources.activeSubscriptions)
    (hsmall : step.resources.activeSubscriptions ≤ u64Max) :
    KeepsAccount session step.resources (step.handle session).2.session
      (step.handle session).2.resources := by
  have hworld : (step.world session).session.Accounted := haccounted
  unfold SessionStep.handle
  cases step.message with
  | req req => exact (effect_of_handleReq hworld rfl).1.keepsAccount haccounted hsmall
  | close subscriptionId =>
    exact (effect_of_handleClose hworld rfl).keepsAccount haccounted hcounted hsmall

/-- One step keeps the account of the host. -/
theorem HostStep.accounted {host host' : Host} (hstep : HostStep host host')
    (h : host.Accounted maxSubscriptions) : host'.Accounted maxSubscriptions := by
  cases hstep with
  | @opens sessions resources session fresh =>
    have hsize : session.subscriptions.subscriptions.size = 0 := by
      rw [fresh.subscriptions]
      exact Std.ExtTreeMap.size_empty
    refine ⟨fun other hother => ?_, ?_, h.bound, h.within, h.small⟩
    · rcases List.mem_cons.mp hother with rfl | hother
      · refine ⟨fresh.limited, ?_, hsize ▸ Nat.zero_le _⟩
        rw [fresh.permits, fresh.subscriptions]
        exact BTreeMap.ext fun id => by simp
      · exact h.sessions other hother
    · have hactive : resources.activeSubscriptions = liveCount sessions := h.active
      unfold liveCount at hactive ⊢
      rw [List.map_cons, List.sum_cons, hsize, Nat.zero_add]
      exact hactive
  | @handles σ before after session step =>
    have haccounted := h.sessions session (List.mem_append_right _ (List.mem_cons_self ..))
    have hactive : step.resources.activeSubscriptions = liveCount (before ++ session :: after) :=
      h.active
    have hbound : step.resources.maxSubscriptions = maxSubscriptions := h.bound
    have hwithin : step.resources.activeSubscriptions ≤ maxSubscriptions := h.within
    rw [liveCount_append_cons] at hactive
    have hkeeps := @SessionStep.keepsAccount σ session step haccounted (by omega) h.small
    have hcount := hkeeps.count
    have hle := hkeeps.within
    refine ⟨fun other hother => ?_, ?_, hkeeps.bound.trans hbound, ?_, hkeeps.small⟩
    · rcases List.mem_append.mp hother with hother | hother
      · exact h.sessions other (List.mem_append_left _ hother)
      · rcases List.mem_cons.mp hother with rfl | hother
        · exact hkeeps.accounted
        · exact h.sessions other (List.mem_append_right _ (List.mem_cons_of_mem _ hother))
    · rw [liveCount_append_cons]
      dsimp only
      omega
    · dsimp only
      omega
  | @ends σ before after world =>
    have haccounted := h.sessions world.session (List.mem_append_right _ (List.mem_cons_self ..))
    have hactive : world.resources.activeSubscriptions =
        liveCount (before ++ world.session :: after) := h.active
    have hwithin : world.resources.activeSubscriptions ≤ maxSubscriptions := h.within
    have hsmall : world.resources.activeSubscriptions ≤ u64Max := h.small
    rw [liveCount_append_cons] at hactive
    have hresources := resources_of_closeAll haccounted (by omega) hsmall
    rw [hresources]
    refine ⟨fun other hother => ?_, ?_, h.bound, ?_, ?_⟩
    · rcases List.mem_append.mp hother with hother | hother
      · exact h.sessions other (List.mem_append_left _ hother)
      · exact h.sessions other (List.mem_append_right _ (List.mem_cons_of_mem _ hother))
    · rw [liveCount_append]
      dsimp only
      omega
    · dsimp only
      omega
    · dsimp only
      omega

/-- **On every host that is reached the counter is the number of open subscriptions**: by induction
on what happened to the host. -/
theorem Host.Reachable.accounted {host : Host} (h : host.Reachable maxSubscriptions) :
    host.Accounted maxSubscriptions := by
  induction h with
  | refl => exact ⟨fun _ hnone => (nomatch hnone), rfl, rfl, Nat.zero_le _, Nat.zero_le _⟩
  | tail _ hstep ih => exact hstep.accounted ih

/-- **Subscription accounting is exact.** In every state that the sessions of a host reach, a
session holds a permit for exactly the ids that are live, and no more subscriptions than it may; the
host counts the live subscriptions of all open sessions, and no more than it may. A request for a
live id neither takes nor gives back a permit, and one that fails or is closed changes no count. -/
theorem permits_exact {host : Host} (h : host.Reachable maxSubscriptions) :
    (∀ session ∈ host.sessions,
      (∀ id, session.subscriptionPermits.contains id = session.subscriptions.contains id) ∧
        session.subscriptions.subscriptions.size ≤ session.subscriptions.maxSubscriptions) ∧
    host.resources.activeSubscriptions = liveCount host.sessions ∧
    host.resources.activeSubscriptions ≤ host.resources.maxSubscriptions ∧
    host.resources.maxSubscriptions = maxSubscriptions ∧
    ∀ session ∈ host.sessions, ∀ (σ : Type) (world : SessionWorld σ)
      (runtime : RelayRuntimeHandle σ) (req : ReqMessage) (now : UnixTimestamp),
      world.session = session → world.resources = host.resources →
      (session.subscriptions.contains req.subscriptionId = true →
        (world.handleReq runtime req now).2.session.subscriptionPermits =
            session.subscriptionPermits ∧
          (world.handleReq runtime req now).2.resources = host.resources) ∧
      (IsRefusal req.subscriptionId (world.handleReq runtime req now).1 →
        (world.handleReq runtime req now).2.session = session ∧
          (world.handleReq runtime req now).2.resources = host.resources) := by
  have haccounted := h.accounted
  refine ⟨fun session hsession => ?_, haccounted.active, haccounted.bound ▸ haccounted.within,
    haccounted.bound, ?_⟩
  · have hheld := haccounted.sessions session hsession
    exact ⟨fun _ => hheld.contains_permits, hheld.within⟩
  · rintro session hsession σ world runtime req now rfl hresources
    have hheld := haccounted.sessions world.session hsession
    obtain ⟨heffect, hrefused⟩ := effect_of_handleReq hheld
      (rfl : world.handleReq runtime req now = (_, _))
    rw [hresources] at heffect hrefused
    exact ⟨heffect.of_live, hrefused⟩

end

/-! ### A host with one subscription -/

section
open Sample

/-- The theorem at a client that has opened a subscription: the session holds one permit for it, and
the host counts one subscription. -/
theorem permits_exact_client : ∃ host : Host, host.Reachable 10 ∧
    host.resources.activeSubscriptions = 1 ∧
    host.resources.activeSubscriptions = liveCount host.sessions := by
  have hopens : HostStep ⟨[], .new 10⟩ ⟨[client], .new 10⟩ :=
    .opens ⟨rfl, rfl, rfl⟩
  have hhandles : HostStep ⟨[client], .new 10⟩ ⟨[((askAll false).handle client).2.session],
      ((askAll false).handle client).2.resources⟩ :=
    @HostStep.handles Unit [] [] client (askAll false)
  have hreaches : Host.Reachable 10 _ := (Relation.ReflTransGen.single hopens).tail hhandles
  have hone : ((askAll false).handle client).2.resources.activeSubscriptions = 1 := by
    decide +kernel
  exact ⟨_, hreaches, hone, (permits_exact hreaches).2.1⟩

end

end Tangle
