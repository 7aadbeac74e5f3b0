import Mathlib.Algebra.Order.Group.Abs
import Mathlib.Algebra.Order.Group.Int
import Mathlib.Data.List.Induction
import Tangle.Relay.Requests
import Tangle.Runtime.Script

/-!
# Authentication

A connection proves who it is with a signed event that names the relay and the challenge the
connection was given. The state of a session keeps the challenge, the relay's addresses, and the
authors who have proved themselves (`BaseAuthState`).

The checks of an event's time are sums of 64 bits that stop at the largest value; as a clock never
passes that value, they are the checks of the exact differences (`saturatingAdd_lt_iff`).
-/

namespace Tangle

/-- What authentication runs on: Pocket's functions, and the text of Rust's `Utf8Error`. -/
structure AuthRuntime extends PocketTypes where
  utf8Error : List UInt8 → String

/-- `BaseAuthChallenge`: the text sent to the client and the second it was issued. -/
structure BaseAuthChallenge where
  value : Text
  issuedAt : UnixTimestamp

/-- `BaseAuthState`: what one connection has been challenged with and whom it has authenticated. -/
structure BaseAuthState where
  relayUrl : Text
  acceptedRelayUrls : BTreeSet Text
  challengeTtlSeconds : Nat
  createdAtSkewSeconds : Nat
  challenge : Option BaseAuthChallenge
  authenticatedPubkeys : BTreeSet PublicKeyHex

/-- `BaseRelayAuthEvent`: what the state checks of an AUTH event once it is parsed. -/
structure BaseRelayAuthEvent where
  pubkey : PublicKeyHex
  createdAt : UnixTimestamp
  relay : Text
  challenge : Text
deriving DecidableEq

/-- A place in a list with one more member is a place in the list or the last. -/
theorem exists_split_concat {α : Type*} {xs : List α} {y : α} (P : List α → α → Prop) :
    (∃ before x after, xs ++ [y] = before ++ x :: after ∧ P before x) ↔
      (∃ before x after, xs = before ++ x :: after ∧ P before x) ∨ P xs y := by
  constructor
  · intro ⟨before, x, after, heq, hP⟩
    rcases List.eq_nil_or_concat after with rfl | ⟨after, last, rfl⟩
    · obtain ⟨rfl, hlast⟩ := List.append_inj' heq rfl
      cases hlast
      exact .inr hP
    · have heq' : xs ++ [y] = (before ++ x :: after) ++ [last] := by simpa using heq
      exact .inl ⟨before, x, after, (List.append_inj' heq' rfl).1, hP⟩
  · intro h
    rcases h with ⟨before, x, after, rfl, hP⟩ | hP
    · exact ⟨before, x, after ++ [y], by simp, hP⟩
    · exact ⟨xs, y, [], rfl, hP⟩

/-! ## Events -/

section
variable (runtime : AuthRuntime) (event : PocketEvent)

/-- A tag on the way to the value of the only tag of a name. -/
def singlePocketTagValue (name : String) (matched : Option Text) :
    List TagValue → Except String (Option Text)
  | [] => .ok matched
  | .raw bytes :: _ => .error (runtime.utf8Error bytes)
  | .text tagName :: values =>
    if tagName ≠ name.toList then
      .ok matched
    else if matched.isSome then
      .error s!"tag `{name}` must not be repeated"
    else
      match values with
      | [] => .error s!"tag `{name}` must include a value"
      | .raw bytes :: _ => .error (runtime.utf8Error bytes)
      | .text value :: _ => .ok (some value)

/-- `required_single_pocket_tag_value`: the value of the one tag of that name, an error when there
is none or more than one. -/
def requiredSinglePocketTagValue (name : String) : Except String Text := do
  let matched ← event.tags.foldlM (singlePocketTagValue runtime name) none
  match matched with
  | some value => .ok value
  | none => .error s!"tag `{name}` is required"

/-- `pocket_event_kind`, with the event's own kind as it was parsed. -/
def pocketEventKind : Except BaseRelayError Kind :=
  (Kind.new event.kind.toNat).mapError .error

/-- `pocket_event_pubkey`: the key that the event is written under. -/
def pocketEventPubkey : Except BaseRelayError PublicKeyHex :=
  (PublicKeyHex.new event.pubkey.text).mapError .error

/-- `parse_base_relay_pocket_auth_event`: nothing for an event of another kind, otherwise the relay
and the challenge that its tags name. -/
def parseBaseRelayPocketAuthEvent : Except String (Option BaseRelayAuthEvent) := do
  let kind ← (pocketEventKind event).mapError BaseRelayError.message
  if kind.value ≠ 22242 then
    return none
  else
    let relay ← requiredSinglePocketTagValue runtime event "relay"
    let challenge ← requiredSinglePocketTagValue runtime event "challenge"
    if relay.isEmpty then
      .error "relay auth relay tag must not be empty"
    else if challenge.isEmpty then
      .error "relay auth challenge tag must not be empty"
    else
      let pubkey ← (pocketEventPubkey event).mapError BaseRelayError.message
      return some ⟨pubkey, event.createdAt, relay, challenge⟩

end

/-! ## The state of a session -/

namespace BaseAuthState

/-- `BaseAuthState::new`: an empty url, a challenge that lives no second and a skew of zero are
refused. -/
def new (relayUrl : Text) (challengeTtlSeconds createdAtSkewSeconds : Nat) :
    Except BaseRelayError BaseAuthState :=
  if relayUrl.trim.isEmpty then
    .error (.invalid "auth relay URL must not be empty")
  else if challengeTtlSeconds = 0 then
    .error (.invalid "auth challenge ttl must be greater than zero")
  else if createdAtSkewSeconds = 0 then
    .error (.invalid "auth created_at skew must be greater than zero")
  else
    .ok ⟨relayUrl, ∅, challengeTtlSeconds, createdAtSkewSeconds, none, ∅⟩

/-- `accept_relay_url`: one more address under which the relay answers, refused when it is blank. -/
def acceptRelayUrl (relayUrl : Text) : StateM BaseAuthState (Except BaseRelayError Unit) :=
  fun state =>
    if relayUrl.trim.isEmpty then
      (.error (.invalid "auth relay URL must not be empty"), state)
    else
      (.ok (), { state with acceptedRelayUrls := state.acceptedRelayUrls.insert relayUrl })

/-- `issue_challenge`: the new challenge takes the place of the one before it. -/
def issueChallenge (challenge : Text) (issuedAt : UnixTimestamp) :
    StateM BaseAuthState (Except BaseRelayError RelayMessage) := fun state =>
  if challenge.isEmpty then
    (.error (.invalid "auth challenge must not be empty"), state)
  else
    (.ok (.auth challenge), { state with challenge := some ⟨challenge, issuedAt⟩ })

/-- `accepts_relay_url`: the relay's own address or one that was added. -/
def acceptsRelayUrl (state : BaseAuthState) (relayUrl : Text) : Bool :=
  relayUrl = state.relayUrl || state.acceptedRelayUrls.contains relayUrl

/-- What `authenticate_pocket` asks of an event. -/
def checkPocket (state : BaseAuthState) (runtime : AuthRuntime) (event : PocketEvent)
    (now : UnixTimestamp) : Except BaseRelayError BaseRelayAuthEvent := do
  verifyPocketEventSignature runtime.toPocketTypes event
  match ← (parseBaseRelayPocketAuthEvent runtime event).mapError .invalid with
  | none => .error (.invalid "AUTH message must contain kind 22242")
  | some auth =>
    match state.challenge with
    | none => .error (.authRequired "auth challenge is missing")
    | some challenge =>
      if !state.acceptsRelayUrl auth.relay then
        .error (.authRequired "auth relay does not match accepted relay URL")
      else if auth.challenge ≠ challenge.value then
        .error (.authRequired "auth challenge does not match")
      else if saturatingAdd challenge.issuedAt state.challengeTtlSeconds < now then
        .error (.authRequired "auth challenge expired")
      else if saturatingAdd auth.createdAt state.createdAtSkewSeconds < now ∨
          saturatingAdd now state.createdAtSkewSeconds < auth.createdAt then
        .error (.authRequired "auth event created_at is outside configured skew")
      else
        .ok auth

/-- `authenticate_pocket`: the state changes only when every check passes. -/
def authenticatePocket (runtime : AuthRuntime) (event : PocketEvent) (now : UnixTimestamp) :
    StateM BaseAuthState (Except BaseRelayError PublicKeyHex) := fun state =>
  match state.checkPocket runtime event now with
  | .error error => (.error error, state)
  | .ok auth => (.ok auth.pubkey, { state with
      authenticatedPubkeys := state.authenticatedPubkeys.insert auth.pubkey })

end BaseAuthState

/-! ## What an event must show -/

/-- The tags of an event have one named `name`, and its value is `value`. -/
def PocketEvent.HasSingleTag (event : PocketEvent) (name : String) (value : Text) : Prop :=
  ∃ values, event.tags.filter (fun tag => tag.head? = some (.text name.toList)) =
    [.text name.toList :: .text value :: values]

/-- The name of every tag of an event is text. -/
def PocketEvent.NamesAreText (event : PocketEvent) : Prop :=
  ∀ tag ∈ event.tags, ∀ bytes, tag.head? ≠ some (.raw bytes)

/-- An event proves its author to a session. -/
structure BaseAuthState.Proves (state : BaseAuthState) (runtime : AuthRuntime) (event : PocketEvent)
    (now : UnixTimestamp) : Prop where
  verifies : (runtime.verify event).Succeeds
  kind : event.kind.toNat = 22242
  relay : ∃ relayUrl, event.HasSingleTag "relay" relayUrl ∧ state.acceptsRelayUrl relayUrl = true
  challenge : ∃ challenge, state.challenge = some challenge ∧
    event.HasSingleTag "challenge" challenge.value ∧
    (now : ℤ) - challenge.issuedAt ≤ state.challengeTtlSeconds
  createdAt : |(event.createdAt : ℤ) - now| ≤ state.createdAtSkewSeconds

section
variable {runtime : AuthRuntime} {event : PocketEvent} {name : String}

/-- One tag on the way: its name is text, and if it is the one looked for, it is the first of its
name and has a value. -/
theorem singlePocketTagValue_eq_ok {matched found : Option Text} {tag : List TagValue} :
    singlePocketTagValue runtime name matched tag = .ok found ↔
      (∀ bytes, tag.head? ≠ some (.raw bytes)) ∧
        (tag.head? ≠ some (.text name.toList) ∧ matched = found ∨
          ∃ value values, tag = .text name.toList :: .text value :: values ∧ matched = none ∧
            some value = found) := by
  match tag with
  | [] => simp [singlePocketTagValue]
  | .raw bytes :: _ => simp [singlePocketTagValue]
  | .text tagName :: values =>
    by_cases hname : tagName = name.toList
    · subst hname
      cases matched with
      | some value => simp [singlePocketTagValue]
      | none =>
        match values with
        | [] => simp [singlePocketTagValue]
        | .raw bytes :: _ => simp [singlePocketTagValue]
        | .text value :: _ => simp [singlePocketTagValue]
    · simp [singlePocketTagValue, hname]

/-- The walk passes when every name is text, and finds the values of the tags of the name, of which
there is one at most. -/
theorem foldlM_singlePocketTagValue {tags : List (List TagValue)} {matched found : Option Text} :
    tags.foldlM (singlePocketTagValue runtime name) matched = .ok found ↔
      (∀ tag ∈ tags, ∀ bytes, tag.head? ≠ some (.raw bytes)) ∧
        ∃ values, matched.toList ++ values = found.toList ∧
          List.Forall₂ (fun tag value => ∃ rest, tag = .text name.toList :: .text value :: rest)
            (tags.filter fun tag => tag.head? = some (.text name.toList)) values := by
  induction tags generalizing matched with
  | nil =>
    constructor
    · intro h
      cases h
      exact ⟨nofun, [], List.append_nil _, .nil⟩
    · intro ⟨_, values, hvalues, hforall⟩
      cases hforall
      rw [List.append_nil] at hvalues
      cases matched <;> cases found <;> cases hvalues <;> rfl
  | cons tag tags ih =>
    rw [Except.foldlM_cons_ok]
    constructor
    · intro ⟨next, hnext, hrest⟩
      obtain ⟨htext, hcases⟩ := singlePocketTagValue_eq_ok.1 hnext
      obtain ⟨htexts, values, hvalues, hforall⟩ := ih.1 hrest
      refine ⟨fun tag' hmem => ?_, ?_⟩
      · rcases List.mem_cons.1 hmem with rfl | hmem
        · exact htext
        · exact htexts tag' hmem
      · rcases hcases with ⟨hne, rfl⟩ | ⟨value, rest, rfl, rfl, rfl⟩
        · refine ⟨values, hvalues, ?_⟩
          rw [List.filter_cons_of_neg (by simpa using hne)]
          exact hforall
        · refine ⟨value :: values, hvalues, ?_⟩
          rw [List.filter_cons_of_pos (by simp)]
          exact .cons ⟨rest, rfl⟩ hforall
    · intro ⟨htexts, values, hvalues, hforall⟩
      have htext := htexts tag List.mem_cons_self
      have hrest := fun tag' hmem => htexts tag' (List.mem_cons_of_mem _ hmem)
      by_cases hname : tag.head? = some (.text name.toList)
      · rw [List.filter_cons_of_pos (by simpa using hname)] at hforall
        cases hforall with
        | @cons _ value _ values hvalue hforall =>
          obtain ⟨rest, rfl⟩ := hvalue
          have hnone : matched = none := by
            cases matched with
            | none => rfl
            | some first => cases found <;> cases hvalues
          subst hnone
          exact ⟨some value, singlePocketTagValue_eq_ok.2 ⟨htext,
            .inr ⟨value, rest, rfl, rfl, rfl⟩⟩,
            ih.2 ⟨hrest, values, hvalues, hforall⟩⟩
      · rw [List.filter_cons_of_neg (by simpa using hname)] at hforall
        exact ⟨matched, singlePocketTagValue_eq_ok.2 ⟨htext, .inl ⟨hname, rfl⟩⟩,
          ih.2 ⟨hrest, values, hvalues, hforall⟩⟩

/-- A required tag is read exactly when the event has one tag of that name with that value, and the
name of every tag is text up to where the search ends. -/
theorem requiredSinglePocketTagValue_eq_ok {value : Text} :
    requiredSinglePocketTagValue runtime event name = .ok value ↔
      event.NamesAreText ∧ event.HasSingleTag name value := by
  unfold requiredSinglePocketTagValue
  rw [Except.bind_eq_ok]
  constructor
  · intro ⟨matched, hfold, hmatched⟩
    obtain ⟨htext, values, hvalues, hforall⟩ := foldlM_singlePocketTagValue.1 hfold
    cases matched with
    | none => cases hmatched
    | some first =>
      cases hmatched
      have hvalues : values = [value] := hvalues
      subst hvalues
      refine ⟨htext, ?_⟩
      obtain ⟨tag, _, ⟨rest, rfl⟩, hnil, htags⟩ := List.forall₂_cons_right_iff.1 hforall
      cases hnil
      exact ⟨rest, htags⟩
  · intro ⟨htext, rest, htags⟩
    refine ⟨some value, foldlM_singlePocketTagValue.2 ⟨htext, [value], rfl, ?_⟩, rfl⟩
    rw [htags]
    exact .cons ⟨rest, rfl⟩ .nil

/-- A relay's address and a challenge are never empty, so no check of them fails. -/
theorem parseBaseRelayPocketAuthEvent_eq_ok {auth : BaseRelayAuthEvent} :
    parseBaseRelayPocketAuthEvent runtime event = .ok (some auth) ↔
      event.kind.toNat = 22242 ∧ event.NamesAreText ∧
        event.HasSingleTag "relay" auth.relay ∧ event.HasSingleTag "challenge" auth.challenge ∧
        auth.relay ≠ [] ∧ auth.challenge ≠ [] ∧ auth.pubkey = event.pubkey ∧
        auth.createdAt = event.createdAt := by
  have hkind : pocketEventKind event = .ok (GroupEventView.eventKind event) := by
    unfold pocketEventKind
    exact Except.mapError_eq_ok.2 (Kind.new_eq_ok.2 rfl)
  have hpubkey : pocketEventPubkey event = .ok event.pubkey := by
    unfold pocketEventPubkey
    exact Except.mapError_eq_ok.2 (Hex64.new_text event.pubkey)
  unfold parseBaseRelayPocketAuthEvent
  rw [hkind, hpubkey]
  by_cases hnum : event.kind.toNat = 22242
  · have hvalue : (GroupEventView.eventKind event).value = 22242 := hnum
    simp only [Except.mapError, Except.ok_bind, hvalue, ne_eq, not_true_eq_false, if_false,
      Except.bind_eq_ok, requiredSinglePocketTagValue_eq_ok]
    constructor
    · intro ⟨relay, ⟨htext, hrelay⟩, challenge, ⟨_, hchallenge⟩, h⟩
      split at h
      · cases h
      · next hrelayNe =>
        split at h
        · cases h
        · next hchallengeNe =>
          cases h
          exact ⟨hnum, htext, hrelay, hchallenge, by simpa using hrelayNe,
            by simpa using hchallengeNe, rfl, rfl⟩
    · intro ⟨_, htext, hrelay, hchallenge, hrelayNe, hchallengeNe, hpubkey, hcreatedAt⟩
      refine ⟨auth.relay, ⟨htext, hrelay⟩, auth.challenge, ⟨htext, hchallenge⟩, ?_⟩
      rw [if_neg (by simpa using hrelayNe), if_neg (by simpa using hchallengeNe), ← hpubkey,
        ← hcreatedAt]
      rfl
  · have hvalue : (GroupEventView.eventKind event).value ≠ 22242 := hnum
    refine iff_of_false (fun h => ?_) fun h => hnum h.1
    simp only [Except.mapError, Except.ok_bind, if_pos hvalue] at h
    cases h

end

/-! ## Clocks -/

/-- The addition that stops at the largest second decides the deadline as the plain sum does, for
any second that a clock can show. -/
theorem saturatingAdd_lt_iff {a b now : Nat} (hnow : now ≤ u64Max) :
    saturatingAdd a b < now ↔ a + b < now := by
  unfold saturatingAdd
  omega

/-- What a session has from its start: its relay's address is not empty, and neither is the
challenge it gives. -/
structure BaseAuthState.WellFormed (state : BaseAuthState) : Prop where
  relayUrl : ∀ relayUrl, state.acceptsRelayUrl relayUrl = true → relayUrl ≠ []
  challenge : ∀ challenge ∈ state.challenge, challenge.value ≠ []

namespace BaseAuthState

variable {state : BaseAuthState} {runtime : AuthRuntime} {event : PocketEvent}
  {now : UnixTimestamp}

/-- **The checks of an AUTH event, as one condition**: the signature holds, the event parses, a
challenge is outstanding, and the relay, the challenge text, the deadline and the skew all agree
with it. -/
theorem checkPocket_eq_ok {auth : BaseRelayAuthEvent} :
    state.checkPocket runtime event now = .ok auth ↔
      (runtime.verify event).Succeeds ∧
        parseBaseRelayPocketAuthEvent runtime event = .ok (some auth) ∧
        ∃ challenge, state.challenge = some challenge ∧ state.acceptsRelayUrl auth.relay = true ∧
          auth.challenge = challenge.value ∧
          ¬ saturatingAdd challenge.issuedAt state.challengeTtlSeconds < now ∧
          ¬ (saturatingAdd auth.createdAt state.createdAtSkewSeconds < now ∨
            saturatingAdd now state.createdAtSkewSeconds < auth.createdAt) := by
  unfold checkPocket
  rw [Except.bind_eq_ok]
  constructor
  · intro ⟨_, hverify, h⟩
    have hverifies : (runtime.verify event).Succeeds := ⟨_, Except.mapError_eq_ok.1 hverify⟩
    obtain ⟨parsed, hparsed, h⟩ := Except.bind_eq_ok.1 h
    cases parsed with
    | none => cases h
    | some parsed =>
      have hparsed := Except.mapError_eq_ok.1 hparsed
      cases hchallenge : state.challenge with
      | none => simp [hchallenge] at h
      | some challenge =>
        simp only [hchallenge] at h
        split_ifs at h with hurl hvalue hexpired hskew
        cases h
        exact ⟨hverifies, hparsed, challenge, rfl, by simpa using hurl, not_not.1 hvalue, hexpired,
          hskew⟩
  · intro ⟨⟨_, hverify⟩, hparsed, challenge, hchallenge, hurl, hvalue, hexpired, hskew⟩
    refine ⟨(), Except.mapError_eq_ok.2 hverify, ?_⟩
    rw [Except.bind_eq_ok]
    refine ⟨some auth, Except.mapError_eq_ok.2 hparsed, ?_⟩
    dsimp only
    rw [hchallenge]
    dsimp only
    rw [hurl, if_neg (by simp), if_neg (not_not.2 hvalue), if_neg hexpired, if_neg hskew]

/-- The checks pass when the event proves its author and the names of its tags are text. -/
theorem checkPocket_succeeds_iff (hstate : state.WellFormed) (hnow : now ≤ u64Max)
    (hcreatedAt : event.createdAt ≤ u64Max) :
    (state.checkPocket runtime event now).Succeeds ↔
      state.Proves runtime event now ∧ event.NamesAreText := by
  constructor
  · intro ⟨auth, hauth⟩
    obtain ⟨hverify, hparsed, challenge, hchallenge, hurl, hvalue, hexpired, hskew⟩ :=
      checkPocket_eq_ok.1 hauth
    obtain ⟨hkind, htext, hrelay, hsingle, -, -, -, hcreated⟩ :=
      parseBaseRelayPocketAuthEvent_eq_ok.1 hparsed
    obtain ⟨hbehind, hahead⟩ := not_or.1 hskew
    rw [saturatingAdd_lt_iff hnow] at hexpired
    rw [hcreated, saturatingAdd_lt_iff hnow] at hbehind
    rw [hcreated, saturatingAdd_lt_iff hcreatedAt] at hahead
    rw [hvalue] at hsingle
    refine ⟨⟨hverify, hkind, ⟨auth.relay, hrelay, hurl⟩, ⟨challenge, hchallenge, hsingle, ?_⟩, ?_⟩,
      htext⟩
    · omega
    · rw [abs_le]
      constructor <;> omega
  · intro ⟨⟨hverify, hkind, ⟨relayUrl, hrelay, hurl⟩, ⟨challenge, hchallenge, hsingle, hexpired⟩,
      hskew⟩, htext⟩
    obtain ⟨hbehind, hahead⟩ := abs_le.1 hskew
    refine ⟨⟨event.pubkey, event.createdAt, relayUrl, challenge.value⟩, checkPocket_eq_ok.2
      ⟨hverify, ?_, challenge, hchallenge, hurl, rfl, ?_, ?_⟩⟩
    · exact parseBaseRelayPocketAuthEvent_eq_ok.2 ⟨hkind, htext, hrelay, hsingle,
        hstate.relayUrl relayUrl hurl, hstate.challenge challenge hchallenge, rfl, rfl⟩
    · rw [saturatingAdd_lt_iff hnow]
      omega
    · dsimp only
      rw [saturatingAdd_lt_iff hnow, saturatingAdd_lt_iff hcreatedAt]
      omega

/-- An AUTH event either passes every check and adds its key, or leaves the state as it was. -/
theorem authenticatePocket_eq (state : BaseAuthState) :
    (∃ auth, state.checkPocket runtime event now = .ok auth ∧
        authenticatePocket runtime event now state = (.ok event.pubkey, { state with
          authenticatedPubkeys := state.authenticatedPubkeys.insert event.pubkey })) ∨
      ∃ error, state.checkPocket runtime event now = .error error ∧
        authenticatePocket runtime event now state = (.error error, state) := by
  unfold authenticatePocket
  cases hcheck : state.checkPocket runtime event now with
  | error error => exact .inr ⟨error, rfl, rfl⟩
  | ok auth =>
    obtain ⟨-, hparsed, -⟩ := checkPocket_eq_ok.1 hcheck
    obtain ⟨-, -, -, -, -, -, hpubkey, -⟩ := parseBaseRelayPocketAuthEvent_eq_ok.1 hparsed
    refine .inl ⟨auth, rfl, ?_⟩
    dsimp only
    rw [hpubkey]

end BaseAuthState

/-! ## Runs of a session -/

/-- A call of a session's state. -/
inductive BaseAuthCall where
  | issueChallenge (challenge : Text) (issuedAt : UnixTimestamp)
  | acceptRelayUrl (relayUrl : Text)
  | authenticatePocket (event : PocketEvent) (now : UnixTimestamp)

namespace BaseAuthCall

/-- The clock and the time of an event have 64 bits. -/
def InRange : BaseAuthCall → Prop
  | authenticatePocket event now => now ≤ u64Max ∧ event.createdAt ≤ u64Max
  | _ => True

/-- The challenge that a call gives. -/
def challenge? : BaseAuthCall → Option BaseAuthChallenge
  | issueChallenge challenge issuedAt => if challenge.isEmpty then none
    else some ⟨challenge, issuedAt⟩
  | _ => none

/-- A call proves an author to a state. -/
def Authenticates (runtime : AuthRuntime) (state : BaseAuthState) (pubkey : PublicKeyHex) :
    BaseAuthCall → Prop
  | authenticatePocket event now =>
    event.pubkey = pubkey ∧ (state.checkPocket runtime event now).Succeeds
  | _ => False

/-- What a call leaves. -/
def apply (runtime : AuthRuntime) (state : BaseAuthState) : BaseAuthCall → BaseAuthState
  | issueChallenge challenge issuedAt => (BaseAuthState.issueChallenge challenge issuedAt state).2
  | acceptRelayUrl relayUrl => (BaseAuthState.acceptRelayUrl relayUrl state).2
  | authenticatePocket event now => (BaseAuthState.authenticatePocket runtime event now state).2

end BaseAuthCall

namespace BaseAuthState

/-- The state after a sequence of calls. -/
def run (runtime : AuthRuntime) (state : BaseAuthState) (calls : List BaseAuthCall) :
    BaseAuthState :=
  calls.foldl (BaseAuthCall.apply runtime) state

/-- What the calls of a session have made of its start. -/
structure Follows (runtime : AuthRuntime) (start : BaseAuthState) (calls : List BaseAuthCall)
    (state : BaseAuthState) : Prop where
  challengeTtlSeconds : state.challengeTtlSeconds = start.challengeTtlSeconds
  createdAtSkewSeconds : state.createdAtSkewSeconds = start.createdAtSkewSeconds
  relayUrl : ∀ relayUrl, state.acceptsRelayUrl relayUrl = true ↔
    start.acceptsRelayUrl relayUrl = true ∨
      .acceptRelayUrl relayUrl ∈ calls ∧ relayUrl.trim ≠ []
  challenge : state.challenge = (calls.reverse.findSome? BaseAuthCall.challenge?).or start.challenge
  pubkeys : ∀ pubkey, pubkey ∈ state.authenticatedPubkeys ↔
    pubkey ∈ start.authenticatedPubkeys ∨
      ∃ earlier call later, calls = earlier ++ call :: later ∧
        call.Authenticates runtime (start.run runtime earlier) pubkey

section
variable {runtime : AuthRuntime} {start state : BaseAuthState} {calls : List BaseAuthCall}

/-- The addresses accepted are the relay's own and those that were added. -/
theorem acceptsRelayUrl_iff {relayUrl : Text} :
    state.acceptsRelayUrl relayUrl = true ↔
      relayUrl = state.relayUrl ∨ relayUrl ∈ state.acceptedRelayUrls := by
  unfold acceptsRelayUrl
  rw [Bool.or_eq_true, decide_eq_true_eq, Std.ExtTreeSet.contains_iff_mem]

/-- What a call leaves of a session's settings. -/
theorem apply_seconds (call : BaseAuthCall) :
    (call.apply runtime state).challengeTtlSeconds = state.challengeTtlSeconds ∧
      (call.apply runtime state).createdAtSkewSeconds = state.createdAtSkewSeconds := by
  cases call with
  | issueChallenge challenge issuedAt =>
    unfold BaseAuthCall.apply issueChallenge
    dsimp only
    split <;> exact ⟨rfl, rfl⟩
  | acceptRelayUrl relayUrl =>
    unfold BaseAuthCall.apply acceptRelayUrl
    dsimp only
    split <;> exact ⟨rfl, rfl⟩
  | authenticatePocket event now =>
    unfold BaseAuthCall.apply authenticatePocket
    dsimp only
    split <;> exact ⟨rfl, rfl⟩

/-- A call changes the outstanding challenge only when it issues one. -/
theorem apply_challenge (call : BaseAuthCall) :
    (call.apply runtime state).challenge = call.challenge?.or state.challenge := by
  cases call with
  | issueChallenge challenge issuedAt =>
    unfold BaseAuthCall.apply issueChallenge BaseAuthCall.challenge?
    dsimp only
    split <;> rfl
  | acceptRelayUrl relayUrl =>
    unfold BaseAuthCall.apply acceptRelayUrl
    dsimp only
    split <;> rfl
  | authenticatePocket event now =>
    unfold BaseAuthCall.apply authenticatePocket
    dsimp only
    split <;> rfl

/-- A call adds an address only when it is the call that adds one, and the address is not blank. -/
theorem apply_acceptsRelayUrl (call : BaseAuthCall) (relayUrl : Text) :
    (call.apply runtime state).acceptsRelayUrl relayUrl = true ↔
      state.acceptsRelayUrl relayUrl = true ∨
        call = .acceptRelayUrl relayUrl ∧ relayUrl.trim ≠ [] := by
  cases call with
  | issueChallenge challenge issuedAt =>
    rw [or_iff_left (fun h => nomatch h.1)]
    unfold BaseAuthCall.apply issueChallenge
    dsimp only
    split <;> exact Iff.rfl
  | acceptRelayUrl accepted =>
    unfold BaseAuthCall.apply acceptRelayUrl
    dsimp only
    split
    · next hempty =>
      refine (or_iff_left fun ⟨heq, hne⟩ => ?_).symm
      cases heq
      exact hne (List.isEmpty_iff.1 hempty)
    · next hempty =>
      have hne : accepted.trim ≠ [] := fun hnil => hempty (List.isEmpty_iff.2 hnil)
      rw [acceptsRelayUrl_iff, acceptsRelayUrl_iff]
      dsimp only
      rw [Std.ExtTreeSet.mem_insert, Std.compare_eq_iff_eq, BaseAuthCall.acceptRelayUrl.injEq]
      grind
  | authenticatePocket event now =>
    rw [or_iff_left (fun h => nomatch h.1)]
    unfold BaseAuthCall.apply authenticatePocket
    dsimp only
    split <;> exact Iff.rfl

/-- **A key is authenticated after a call when it was before or the call proves it**: no call takes
a key away, and only an AUTH event that passes its checks adds one. -/
theorem apply_pubkeys (call : BaseAuthCall) (pubkey : PublicKeyHex) :
    pubkey ∈ (call.apply runtime state).authenticatedPubkeys ↔
      pubkey ∈ state.authenticatedPubkeys ∨ call.Authenticates runtime state pubkey := by
  cases call with
  | issueChallenge challenge issuedAt =>
    unfold BaseAuthCall.apply issueChallenge
    dsimp only
    split <;> exact (or_iff_left id).symm
  | acceptRelayUrl relayUrl =>
    unfold BaseAuthCall.apply acceptRelayUrl
    dsimp only
    split <;> exact (or_iff_left id).symm
  | authenticatePocket event now =>
    unfold BaseAuthCall.apply BaseAuthCall.Authenticates
    dsimp only
    rcases @authenticatePocket_eq runtime event now state with
      ⟨auth, hcheck, heq⟩ | ⟨error, hcheck, heq⟩
    · rw [heq, hcheck]
      dsimp only
      rw [BTreeSet.mem_insert, and_iff_left (Except.succeeds_ok auth), or_comm]
    · rw [heq, hcheck]
      exact (or_iff_left fun h => Except.not_succeeds_error error h.2).symm

/-- One more call at the end of a sequence is that call after the rest. -/
theorem run_concat (call : BaseAuthCall) :
    start.run runtime (calls ++ [call]) = call.apply runtime (start.run runtime calls) := by
  unfold run
  rw [List.foldl_append]
  rfl

/-- What a run leads to follows from its calls: the challenge is the last one issued, the addresses
those added, the keys those proved at some point of the run. By induction on the calls from the
end. -/
theorem run_follows (runtime : AuthRuntime) (start : BaseAuthState) (calls : List BaseAuthCall) :
    Follows runtime start calls (start.run runtime calls) := by
  induction calls using List.reverseRecOn with
  | nil =>
    refine ⟨rfl, rfl, fun relayUrl => ?_, rfl, fun pubkey => ?_⟩
    · exact (or_iff_left fun h => nomatch h.1).symm
    · refine (or_iff_left fun ⟨earlier, call, later, heq, _⟩ => ?_).symm
      cases earlier <;> cases heq
  | append_singleton calls call ih =>
    rw [run_concat]
    refine ⟨(apply_seconds call).1.trans ih.challengeTtlSeconds,
      (apply_seconds call).2.trans ih.createdAtSkewSeconds, fun relayUrl => ?_, ?_,
      fun pubkey => ?_⟩
    · rw [apply_acceptsRelayUrl, ih.relayUrl, List.mem_append, List.mem_singleton, or_and_right,
        or_assoc, @eq_comm _ call]
    · rw [apply_challenge, ih.challenge, List.reverse_concat, List.findSome?_cons]
      cases call.challenge? with
      | none => rfl
      | some challenge => rfl
    · rw [apply_pubkeys, ih.pubkeys, or_assoc, exists_split_concat fun earlier call =>
        BaseAuthCall.Authenticates runtime (start.run runtime earlier) pubkey call]

/-- A state is made when its url is not blank and its bounds are positive, and it starts with no
challenge and no key. -/
theorem new_eq_ok {relayUrl : Text} {challengeTtlSeconds createdAtSkewSeconds : Nat}
    (h : new relayUrl challengeTtlSeconds createdAtSkewSeconds = .ok state) :
    relayUrl.trim ≠ [] ∧
      state = ⟨relayUrl, ∅, challengeTtlSeconds, createdAtSkewSeconds, none, ∅⟩ := by
  unfold new at h
  split_ifs at h with hempty httl hskew
  cases h
  exact ⟨fun hnil => hempty (List.isEmpty_iff.2 hnil), rfl⟩

/-- The bounds of a new state hold in every state that calls lead to. -/
theorem wellFormed_run {relayUrl : Text} {challengeTtlSeconds createdAtSkewSeconds : Nat}
    (hnew : new relayUrl challengeTtlSeconds createdAtSkewSeconds = .ok start)
    (calls : List BaseAuthCall) : (start.run runtime calls).WellFormed := by
  obtain ⟨htrim, rfl⟩ := new_eq_ok hnew
  have hfollows := run_follows runtime
    ⟨relayUrl, ∅, challengeTtlSeconds, createdAtSkewSeconds, none, ∅⟩ calls
  have hne (accepted : Text) (h : accepted.trim ≠ []) : accepted ≠ [] := by
    intro hnil
    subst hnil
    exact h rfl
  refine ⟨fun accepted haccepts => ?_, fun challenge hchallenge => ?_⟩
  · rcases (hfollows.relayUrl accepted).1 haccepts with hstart | ⟨-, haccepted⟩
    · rcases acceptsRelayUrl_iff.1 hstart with rfl | hmem
      · exact hne _ htrim
      · exact absurd hmem Std.ExtTreeSet.not_mem_empty
    · exact hne _ haccepted
  · rw [Option.mem_def, hfollows.challenge, Option.or_none,
      List.findSome?_eq_some_iff] at hchallenge
    obtain ⟨-, call, -, -, hgiven, -⟩ := hchallenge
    cases call with
    | issueChallenge value issuedAt =>
      unfold BaseAuthCall.challenge? at hgiven
      dsimp only at hgiven
      split_ifs at hgiven with hempty
      cases hgiven
      exact fun hnil => hempty (List.isEmpty_iff.2 hnil)
    | acceptRelayUrl _ => cases hgiven
    | authenticatePocket _ _ => cases hgiven

/-- The authors of a session are those who have proved themselves, each with an event that its state
at that time accepts; such an event is always accepted, unless the name of one of its tags is not
text. A refused event changes nothing, and no author is ever forgotten. -/
theorem authenticated_iff_proved (runtime : AuthRuntime) {relayUrl : Text}
    {challengeTtlSeconds createdAtSkewSeconds : Nat} {start : BaseAuthState}
    (hnew : new relayUrl challengeTtlSeconds createdAtSkewSeconds = .ok start)
    (calls : List BaseAuthCall) (hclock : ∀ call ∈ calls, call.InRange) :
    (∀ pubkey, pubkey ∈ (start.run runtime calls).authenticatedPubkeys ↔
      ∃ earlier event now later, calls = earlier ++ .authenticatePocket event now :: later ∧
        event.pubkey = pubkey ∧ (start.run runtime earlier).Proves runtime event now ∧
        event.NamesAreText) ∧
    (∀ earlier event now later, calls = earlier ++ .authenticatePocket event now :: later →
      ((start.run runtime earlier).Proves runtime event now ∧ event.NamesAreText ↔
        (authenticatePocket runtime event now (start.run runtime earlier)).1 = .ok event.pubkey) ∧
      (¬ (authenticatePocket runtime event now (start.run runtime earlier)).1.Succeeds →
        (authenticatePocket runtime event now (start.run runtime earlier)).2 =
          start.run runtime earlier)) ∧
    (∀ earlier later, calls = earlier ++ later →
      ∀ pubkey ∈ (start.run runtime earlier).authenticatedPubkeys,
        pubkey ∈ (start.run runtime calls).authenticatedPubkeys) ∧
    (∀ accepted, (start.run runtime calls).acceptsRelayUrl accepted = true ↔
      accepted = relayUrl ∨ .acceptRelayUrl accepted ∈ calls ∧ accepted.trim ≠ []) ∧
    (start.run runtime calls).challenge = calls.reverse.findSome? BaseAuthCall.challenge? ∧
    (start.run runtime calls).challengeTtlSeconds = challengeTtlSeconds ∧
    (start.run runtime calls).createdAtSkewSeconds = createdAtSkewSeconds := by
  have hfollows := run_follows runtime start
  have hchecks {earlier event now later}
      (heq : calls = earlier ++ .authenticatePocket event now :: later) :
      ((start.run runtime earlier).checkPocket runtime event now).Succeeds ↔
        (start.run runtime earlier).Proves runtime event now ∧ event.NamesAreText := by
    have hrange := hclock (.authenticatePocket event now) (by rw [heq]; simp)
    exact checkPocket_succeeds_iff (wellFormed_run hnew earlier) hrange.1 hrange.2
  obtain ⟨-, hstart⟩ := new_eq_ok hnew
  refine ⟨fun pubkey => ?_, fun earlier event now later heq => ⟨?_, fun hfails => ?_⟩,
    fun earlier later heq pubkey hmem => ?_, fun accepted => ?_, ?_, ?_, ?_⟩
  · rw [(hfollows calls).pubkeys, or_iff_right (by rw [hstart]; exact Std.ExtTreeSet.not_mem_empty)]
    constructor
    · intro ⟨earlier, call, later, heq, hproves⟩
      cases call with
      | issueChallenge challenge issuedAt => cases hproves
      | acceptRelayUrl accepted => cases hproves
      | authenticatePocket event now =>
        exact ⟨earlier, event, now, later, heq, hproves.1, (hchecks heq).1 hproves.2⟩
    · intro ⟨earlier, event, now, later, heq, hpubkey, hproves⟩
      exact ⟨earlier, .authenticatePocket event now, later, heq, hpubkey, (hchecks heq).2 hproves⟩
  · rw [← hchecks heq]
    rcases @authenticatePocket_eq runtime event now (start.run runtime earlier) with
      ⟨auth, hcheck, hauth⟩ | ⟨error, hcheck, hauth⟩
    · rw [hcheck, hauth]
      exact iff_of_true (Except.succeeds_ok _) rfl
    · rw [hcheck, hauth]
      exact iff_of_false (Except.not_succeeds_error _) (fun h => nomatch h)
  · rcases @authenticatePocket_eq runtime event now (start.run runtime earlier) with
      ⟨auth, hcheck, hauth⟩ | ⟨error, hcheck, hauth⟩
    · rw [hauth] at hfails
      exact absurd (Except.succeeds_ok _) hfails
    · rw [hauth]
  · rw [(hfollows calls).pubkeys]
    rcases ((hfollows earlier).pubkeys pubkey).1 hmem with hmem | ⟨before, call, after,
      rfl, hproves⟩
    · exact .inl hmem
    · exact .inr ⟨before, call, after ++ later, by rw [heq]; simp, hproves⟩
  · rw [(hfollows calls).relayUrl, acceptsRelayUrl_iff, hstart]
    rw [or_iff_left (a := accepted = relayUrl) Std.ExtTreeSet.not_mem_empty]
  · rw [(hfollows calls).challenge, hstart, Option.or_none]
  · rw [(hfollows calls).challengeTtlSeconds, hstart]
  · rw [(hfollows calls).createdAtSkewSeconds, hstart]

end

end BaseAuthState

namespace Sample

/-- Every signature verifies. -/
def authRuntime : AuthRuntime where
  toPocketTypes := pocket
  utf8Error _ := "invalid utf-8 sequence of 1 bytes from index 0"

/-- A session as a connection begins it. -/
def newSession : BaseAuthState :=
  ⟨"wss://relay.example".toList, ∅, 600, 60, none, ∅⟩

/-- A member's answer to the challenge `c`, with further tags. -/
def answer (tags : List (List TagValue)) : PocketEvent where
  id := eventId 22242 1000 []
  pubkey := member
  kind := 22242
  createdAt := 1000
  tags := toTagValues [["relay".toList, "wss://relay.example".toList],
    ["challenge".toList, "c".toList]] ++ tags
  content := []

/-- The relay challenges the connection once. -/
def challenged : List BaseAuthCall :=
  [.issueChallenge "c".toList 1000]

/-- An answer that names the relay and the challenge proves its key while the challenge lives. -/
theorem answer_proves {tags : List (List TagValue)}
    (hrelay : (answer tags).HasSingleTag "relay" "wss://relay.example".toList)
    (hchallenge : (answer tags).HasSingleTag "challenge" "c".toList) :
    (newSession.run authRuntime challenged).Proves authRuntime (answer tags) 1060 := by
  refine ⟨⟨(), rfl⟩, rfl, ⟨_, hrelay, ?_⟩, ⟨⟨"c".toList, 1000⟩, rfl, hchallenge, ?_⟩, ?_⟩
  · exact BaseAuthState.acceptsRelayUrl_iff.2 (.inl rfl)
  · decide
  · have hskew : |((1000 : ℕ) : ℤ) - (1060 : ℕ)| ≤ (60 : ℕ) := by decide
    exact hskew

/-- The theorem at a session that answered in time: its key is proved. -/
theorem authenticated_iff_proved_answer :
    member ∈ (newSession.run authRuntime
      (challenged ++ [.authenticatePocket (answer []) 1060])).authenticatedPubkeys := by
  have hnew : BaseAuthState.new "wss://relay.example".toList 600 60 = .ok newSession := rfl
  refine ((BaseAuthState.authenticated_iff_proved authRuntime hnew _ ?_).1 member).2
    ⟨challenged, answer [], 1060, [], rfl, rfl, answer_proves ⟨[], rfl⟩ ⟨[], rfl⟩, ?_⟩
  · intro call hmem
    rcases List.mem_cons.1 hmem with rfl | hmem
    · trivial
    · rw [List.mem_singleton.1 hmem]
      exact ⟨by decide, by decide⟩
  · have htexts : ∀ tag ∈ (answer []).tags, (tag.head?.any fun value =>
        match value with | .raw _ => true | .text _ => false) = false := by
      decide
    intro tag hmem bytes hraw
    have htext := htexts tag hmem
    rw [hraw] at htext
    cases htext

/-- An event that proves its author is refused for the name of another tag, which is not UTF-8: the
parser decodes the names of all tags, also of those behind the one that it looks for. -/
theorem answer_refused :
    (newSession.run authRuntime challenged).Proves authRuntime (answer [[.raw [255]]]) 1060 ∧
      (BaseAuthState.authenticatePocket authRuntime (answer [[.raw [255]]]) 1060
        (newSession.run authRuntime challenged)).1 =
        .error (.invalid "invalid utf-8 sequence of 1 bytes from index 0") :=
  ⟨answer_proves ⟨[], rfl⟩ ⟨[], rfl⟩, rfl⟩

end Sample

end Tangle
