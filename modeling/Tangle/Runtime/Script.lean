import Tangle.Runtime.Relay

/-!
# Scripts

A script is a list of starts, submissions and stops, run one after another; a start or a submission
may be stopped after some operations. Running a script is a computation (`Relay.runScript`), and
where it leads is reached by the relay (`Relay.reaches_of_runScript`), so a concrete run is checked
by evaluation.

`Sample` is a small Pocket library to run scripts with: an encoding of tags with Pocket's two-byte
fields, a secret whose public key is its own text, and an event id that is a checksum of the event.
-/

namespace Tangle

instance (codec : TagCodec) (event : PocketEvent) : Decidable (event.Fits codec) :=
  inferInstanceAs (Decidable (_ ≤ _))

/-- One line of a script. -/
inductive ScriptLine where
  | start (config : GroupRuntimeConfig) (now : UnixTimestamp)
  | startUntil (config : GroupRuntimeConfig) (now : UnixTimestamp) (operations : Nat)
  | submit (event : PocketEvent) (auth : GroupAuthContext)
  | submitUntil (event : PocketEvent) (auth : GroupAuthContext) (operations : Nat)
  | stop

namespace Relay

variable (relay : Relay) (allows : World → Happening → Bool)

/-- The happening of a line and the world it leads to, unless it cannot run. -/
def runLine : World → ScriptLine → Option (Happening × World)
  | .down store, .start config now =>
    match exec relay.db.handle (relay.start config now) store with
    | (.ok groups, store') => some (.started config now, .up groups store')
    | (.error _, _) => none
  | .down store, .startUntil config now operations =>
    ((relay.start config now).run.states relay.db.handle store)[operations]?.map fun store' =>
      (.startStopped config now, .down store')
  | .up groups store, .submit event auth =>
    if event.Fits relay.codec then
      match execState relay.db.handle (relay.submit event auth) groups store with
      | (result, groups', store') => some (.submitted event auth result, .up groups' store')
    else
      none
  | .up groups store, .submitUntil event auth operations =>
    if event.Fits relay.codec then
      (((relay.submit event auth).run.run groups).states relay.db.handle store)[operations]?.map
        fun store' => (.submitStopped event auth, .down store')
    else
      none
  | .up _ store, .stop => some (.stopped, .down store)
  | _, _ => none

/-- Runs a script whose happenings are all allowed. -/
def runScript (lines : List ScriptLine) : Option World :=
  lines.foldlM (fun w line => do
    let (happening, w') ← relay.runLine w line
    if allows w happening then some w' else none) (.down .empty)

variable {relay allows}

/-- A line of a script that runs is a step of the relay. -/
theorem step_of_runLine {w w' : World} {line : ScriptLine} {happening : Happening}
    (h : relay.runLine w line = some (happening, w')) : relay.Step w happening w' := by
  unfold runLine at h
  split at h
  · split at h
    · next hrun => cases h; exact .started hrun
    · cases h
  · obtain ⟨store', hstore, h⟩ := Option.map_eq_some_iff.mp h
    cases h
    exact .startStopped (List.mem_of_getElem? hstore)
  · split at h
    · next hfits =>
      cases h
      exact .submitted hfits rfl
    · cases h
  · split at h
    · next hfits =>
      obtain ⟨store', hstore, h⟩ := Option.map_eq_some_iff.mp h
      cases h
      exact .submitStopped hfits (List.mem_of_getElem? hstore)
    · cases h
  · cases h
    exact .stopped
  · cases h

/-- A script leads where the relay may get to. -/
theorem reaches_of_runScript {lines : List ScriptLine} {w : World}
    (h : relay.runScript allows lines = some w) :
    relay.Reaches (fun w happening => allows w happening = true) w := by
  have hfold : ∀ {lines : List ScriptLine} {start : World},
      relay.Reaches (fun w happening => allows w happening = true) start →
      lines.foldlM (fun w line => do
        let (happening, w') ← relay.runLine w line
        if allows w happening then some w' else none) start = some w →
      relay.Reaches (fun w happening => allows w happening = true) w := by
    intro lines
    induction lines with
    | nil =>
      intro start hstart h
      cases h
      exact hstart
    | cons line rest ih =>
      intro start hstart h
      rw [List.foldlM_cons] at h
      obtain ⟨next, hnext, hrest⟩ := Option.bind_eq_some_iff.mp h
      obtain ⟨⟨happening, w'⟩, hline, hallows⟩ := Option.bind_eq_some_iff.mp hnext
      dsimp only at hallows
      split at hallows
      · next hallowed =>
        cases hallows
        exact ih (.step hstart hallowed (step_of_runLine hline)) hrest
      · cases hallows
  exact hfold .empty h

/-- The script ends with a running service, and `P` holds of it and the store. Only the kernel runs
a script. -/
@[irreducible] def ScriptEnds (relay : Relay) (allows : World → Happening → Bool)
    (lines : List ScriptLine)
    (P : GroupServiceState → PocketStore → Prop) : Prop :=
  match relay.runScript allows lines with
  | some (.up (some state) store) => P state store
  | _ => False

instance {lines : List ScriptLine} {P : GroupServiceState → PocketStore → Prop}
    [∀ state store, Decidable (P state store)] : Decidable (relay.ScriptEnds allows lines P) := by
  unfold ScriptEnds
  exact match relay.runScript allows lines with
    | some (.up (some state) store) => inferInstanceAs (Decidable (P state store))
    | some (.up none _) | some (.down _) | none => .isFalse id

/-- A script that ends well has led to a service with its store. -/
theorem ScriptEnds.reaches {lines : List ScriptLine} {P : GroupServiceState → PocketStore → Prop}
    (h : relay.ScriptEnds allows lines P) : ∃ state store,
      relay.Reaches (fun w happening => allows w happening = true) (.up (some state) store) ∧
        P state store := by
  unfold ScriptEnds at h
  split at h
  · next state store hrun => exact ⟨state, store, reaches_of_runScript hrun, h⟩
  · exact h.elim

/-- What is reached by some steps is reached by more. -/
theorem Reaches.mono {allowed allowed' : World → Happening → Prop} {w : World}
    (h : relay.Reaches allowed w)
    (himp : ∀ w happening, allowed w happening → allowed' w happening) :
    relay.Reaches allowed' w := by
  induction h with
  | empty => exact .empty
  | step _ hallowed hstep ih => exact .step ih (himp _ _ hallowed) hstep

end Relay

/-! ## A library to run scripts with -/

namespace Sample

/-- A tag section has a length and a count, a tag an offset and a count, a value a length. -/
def codec : TagCodec := ⟨4, 4, 2⟩

/-- Digits to the base 16, the least first. -/
def hexDigits : Nat → Nat → List Char
  | 0, _ => []
  | count + 1, n => Nat.digitChar (n % 16) :: hexDigits count (n / 16)

/-- A number's digits are the text of an id. -/
theorem isHex64_hexDigits (n : Nat) : IsHex64 (hexDigits 64 n) := by
  have hlength : ∀ count n, (hexDigits count n).length = count := by
    intro count
    induction count with
    | zero => exact fun _ => rfl
    | succ count ih => exact fun n => congrArg (· + 1) (ih (n / 16))
  have hdigit : ∀ m < 16, isLowercaseHex (Nat.digitChar m) = true := by decide
  have hall : ∀ count n, (hexDigits count n).all isLowercaseHex = true := by
    intro count
    induction count with
    | zero => exact fun _ => rfl
    | succ count ih =>
      intro n
      rw [hexDigits, List.all_cons, hdigit _ (Nat.mod_lt _ (by decide)), ih]
      rfl
  exact ⟨hlength 64 n, hall 64 n⟩

/-- A checksum of a text, begun with another number. -/
def checksum (start : Nat) (value : Text) : Nat :=
  value.foldl (fun sum c => (sum * 1000003 + c.toNat) % 2 ^ 64) start

/-- The id of an event: a checksum of its fields. -/
def eventId (kind : UInt16) (createdAt : UnixTimestamp) (tags : List (List Text)) : EventId :=
  let sum := tags.foldl (fun sum tag => tag.foldl checksum sum) (kind.toNat * 2 ^ 32 + createdAt)
  ⟨hexDigits 64 sum, isHex64_hexDigits sum⟩

/-- Pocket as the sample has it: an event's id is a checksum, a key is its secret, and every
signature holds. -/
def pocket : PocketTypes where
  ownedTags tags :=
    if codec.size (toTagValues tags) ≤ maxTagSectionBytes then .ok () else .error "end of output"
  publicKey secret := .ok ⟨secret.text, secret.isHex⟩
  signNew secret kind tags createdAt content :=
    .ok ⟨eventId kind createdAt tags, ⟨secret.text, secret.isHex⟩, kind, createdAt,
      toTagValues tags, content⟩
  verify _ := .ok ()

/-- That Pocket signs what it can hold. -/
theorem pocket_lawful : pocket.Lawful codec where
  ownedTags_iff tags := by
    simp only [pocket]
    split
    · next h => simp [h]
    · next h => simp [h]
  signNew_ok := by
    intro secret pubkey kind tags createdAt content hkey _
    cases hkey
    exact ⟨_, rfl, ⟨(), rfl⟩⟩

/-- A database that takes every event and finds each under its id. -/
def plainDb : PocketDb where
  refuses _ _ := none
  findById events id := (events.find? fun stored => stored.event.id == id).map StoredEvent.event
  eventLen _ := 144
  eventLen_pos _ := by decide

/-- The plain database finds what it holds. -/
theorem plainDb_faithful : plainDb.Faithful where
  found {events id event} h := by
    obtain ⟨item, hitem, rfl⟩ := Option.map_eq_some_iff.mp h
    have hid := @List.find?_some _ (fun stored : StoredEvent => stored.event.id == id) _ _ hitem
    exact ⟨item, List.mem_of_find?_eq_some hitem, beq_iff_eq.mp hid⟩
  told {events event} h hnone := by
    obtain ⟨item, hitem, hid⟩ := h
    have hfind := List.find?_eq_none.mp (Option.map_eq_none_iff.mp hnone) item hitem
    exact absurd (beq_iff_eq.mpr hid) hfind

/-- What the plain database finds it holds. -/
theorem plainDb_findsStored : plainDb.FindsStored where
  stored {events id event} h := by
    obtain ⟨item, hitem, rfl⟩ := Option.map_eq_some_iff.mp h
    have hid := @List.find?_some _ (fun stored : StoredEvent => stored.event.id == id) _ _ hitem
    exact ⟨beq_iff_eq.mp hid, item, List.mem_of_find?_eq_some hitem, rfl⟩

/-- The relay of the samples. -/
def relay : Relay where
  pocket := pocket
  codec := codec
  lawful := pocket_lawful
  db := plainDb
  syncPolicy := .flushOnWrite
  limits := ⟨2000, 65535⟩

/-- The owner of the samples' groups. -/
def owner : PublicKeyHex := .repeated 'a' (Eq.refl true)

/-- A member of the samples' groups. -/
def member : PublicKeyHex := .repeated 'b' (Eq.refl true)

/-- Sixty-four sevens are the text of a key. -/
theorem isHex64_sevens : IsHex64 (List.replicate 64 '7') := by
  decide

/-- A relay with one owner, where anyone may join an open group. -/
def config : GroupRuntimeConfig where
  enabled := true
  canonicalRelayUrl := some "wss://relay.example".toList
  relaySecret := some ⟨List.replicate 64 '7', isHex64_sevens⟩
  ownerPubkeys := [owner]
  adminPubkeys := []
  settings := ⟨⟨true, false⟩, .default⟩
  valid := by decide

/-- Groups are off. -/
def ungrouped : GroupRuntimeConfig where
  enabled := false
  canonicalRelayUrl := none
  relaySecret := none
  ownerPubkeys := []
  adminPubkeys := []
  settings := ⟨⟨true, false⟩, .default⟩
  valid := by decide

/-- The group of the samples. -/
def farm : GroupId :=
  ⟨"farm".toList, (@validateGroupId_eq_ok _ maxGroupIdBytes).mp (by decide) |>.1⟩

/-- An event of the group `farm`, with further tags. -/
def farmEvent (author : PublicKeyHex) (kind : UInt16) (createdAt : UnixTimestamp)
    (tags : List (List String)) : PocketEvent :=
  let texts := ["h".toList, "farm".toList] :: tags.map fun tag => tag.map String.toList
  .ofTexts (eventId kind createdAt (texts ++ [[author.text]])) author kind createdAt texts

/-- A kind as an event's class carries it. -/
def kindOf (kind : UInt16) : Kind :=
  ⟨kind.toNat, lt_trans kind.toNat_lt (by decide)⟩

/-- One key has authenticated. -/
def authAs (pubkey : PublicKeyHex) : GroupAuthContext :=
  .new [pubkey]

end Sample

end Tangle
