import Mathlib.Order.Basic
import Tangle.Lib.Ordered
import Tangle.Protocol.Text

/-!
# Identifiers and kinds

Event ids and public keys are 64 lowercase hexadecimal digits, kinds are 32-bit numbers. A value
of each type carries the proof that its constructor's check passed, so a scalar that exists is
well formed, and building one from text is the only place a check can fail.
-/

namespace Tangle

/-- Lowercase hexadecimal digits. -/
def isLowercaseHex (c : Char) : Bool :=
  ('0' ≤ c && c ≤ '9') || ('a' ≤ c && c ≤ 'f')

/-- The check both identifiers share: exactly `expected` characters, each a lowercase digit. -/
def requireLowercaseHex (scalar : String) (value : Text) (expected : Nat) : Except String Unit :=
  if value.length ≠ expected then
    .error s!"{scalar} must be {expected} characters, got {value.length}"
  else if value.any fun c => !isLowercaseHex c then
    .error s!"{scalar} must be lowercase hex"
  else
    .ok ()

/-- The text of an identifier: what `requireLowercaseHex` accepts at length 64. -/
def IsHex64 (value : Text) : Prop :=
  value.length = 64 ∧ value.all isLowercaseHex

instance (value : Text) : Decidable (IsHex64 value) :=
  inferInstanceAs (Decidable (_ ∧ _))

/-- The check accepts exactly the digits of the length it is given. -/
theorem requireLowercaseHex_eq_ok {scalar : String} {value : Text} {expected : Nat} :
    requireLowercaseHex scalar value expected = .ok () ↔
      value.length = expected ∧ value.all isLowercaseHex := by
  unfold requireLowercaseHex
  split_ifs with hlen hany
  · simp [hlen]
  · simp_all
  · simp_all

/-- The check accepts exactly the texts of identifiers. -/
theorem requireLowercaseHex_ok_iff {scalar : String} {value : Text} :
    requireLowercaseHex scalar value 64 = .ok () ↔ IsHex64 value :=
  requireLowercaseHex_eq_ok

/-- An identifier's text takes one byte a character. -/
theorem IsHex64.byteLen {value : Text} (h : IsHex64 value) : value.byteLen = 64 := by
  obtain ⟨hlen, hall⟩ := h
  have hone : ∀ c ∈ value, Char.utf8Size c = 1 := by
    intro c hc
    have hhex : isLowercaseHex c = true := List.all_eq_true.mp hall c hc
    have hle : c.val ≤ 127 := by
      simp only [isLowercaseHex, Bool.or_eq_true, Bool.and_eq_true, decide_eq_true_eq,
        Char.le_def] at hhex
      rcases hhex with ⟨_, h9⟩ | ⟨_, hf⟩
      · exact UInt32.le_trans h9 (by decide)
      · exact UInt32.le_trans hf (by decide)
    simp [Char.utf8Size, hle]
  rw [Text.byteLen, List.map_congr_left hone]
  simp [hlen]

/-! ## Event ids and public keys -/

/-- An identifier of 64 lowercase hexadecimal digits, under the name its errors use. -/
structure Hex64 (scalar : String) where
  text : Text
  isHex : IsHex64 text
deriving DecidableEq

namespace Hex64

variable {scalar : String}

/-- Builds an identifier from text, refusing anything but 64 lowercase digits. -/
def new (scalar : String) (value : Text) : Except String (Hex64 scalar) :=
  match h : requireLowercaseHex scalar value 64 with
  | .error reason => .error reason
  | .ok () => .ok ⟨value, requireLowercaseHex_ok_iff.mp h⟩

theorem text_injective : Function.Injective fun id : Hex64 scalar => id.text := by
  intro ⟨a, ha⟩ ⟨b, hb⟩ hab
  cases hab
  rfl

instance : LinearOrder (Hex64 scalar) :=
  LinearOrder.lift' (fun id => id.text) text_injective

/-- A text builds an identifier exactly when it is one's text. -/
theorem new_eq_ok {value : Text} {id : Hex64 scalar} :
    new scalar value = .ok id ↔ id.text = value := by
  refine ⟨fun h => ?_, fun h => ?_⟩
  · unfold new at h
    split at h
    · cases h
    · cases h
      rfl
  · subst h
    unfold new
    split
    · next hreason => simp [requireLowercaseHex_ok_iff.mpr id.isHex] at hreason
    · rfl

/-- An identifier is rebuilt from its own text. -/
@[simp] theorem new_text (id : Hex64 scalar) : new scalar id.text = .ok id :=
  new_eq_ok.mpr rfl

/-- Building an identifier succeeds exactly on the texts of identifiers. -/
theorem new_isOk_iff {value : Text} : (∃ id, new scalar value = .ok id) ↔ IsHex64 value := by
  refine ⟨fun h => ?_, fun h => ⟨⟨value, h⟩, new_eq_ok.mpr rfl⟩⟩
  obtain ⟨id, hid⟩ := h
  exact new_eq_ok.mp hid ▸ id.isHex

/-- The identifier that repeats one digit. -/
def repeated (digit : Char) (h : isLowercaseHex digit = true) : Hex64 scalar :=
  ⟨List.replicate 64 digit, List.length_replicate, by simp [h]⟩

end Hex64

/-- The id of an event. -/
abbrev EventId : Type := Hex64 "event id"

instance transOrdEventId : Std.TransOrd EventId := inferInstance

/-- Builds an event id from text. -/
abbrev EventId.new (value : Text) : Except String EventId := Hex64.new "event id" value

/-- A public key. -/
abbrev PublicKeyHex : Type := Hex64 "public key"

instance transOrdPublicKeyHex : Std.TransOrd PublicKeyHex := inferInstance

/-- Builds a public key from text. -/
abbrev PublicKeyHex.new (value : Text) : Except String PublicKeyHex := Hex64.new "public key" value

/-- A signature, 128 lowercase hexadecimal digits. -/
structure SignatureHex where
  text : Text
  isHex : text.length = 128 ∧ text.all isLowercaseHex
deriving DecidableEq

namespace SignatureHex

/-- Builds a signature from text, refusing anything but 128 lowercase digits. -/
def new (value : Text) : Except String SignatureHex :=
  match h : requireLowercaseHex "signature" value 128 with
  | .error reason => .error reason
  | .ok () => .ok ⟨value, requireLowercaseHex_eq_ok.mp h⟩

/-- A signature is rebuilt from its own text. -/
@[simp] theorem new_text (sig : SignatureHex) : new sig.text = .ok sig := by
  unfold new
  split
  · next hreason => simp [requireLowercaseHex_eq_ok.mpr sig.isHex] at hreason
  · rfl

end SignatureHex

/-! ## Kinds -/

/-- The kind of an event, a 32-bit number. -/
structure Kind where
  value : Nat
  lt : value < 2 ^ 32
deriving DecidableEq

namespace Kind

/-- Builds a kind, refusing a number that does not fit. -/
def new (value : Nat) : Except String Kind :=
  if h : value < 2 ^ 32 then .ok ⟨value, h⟩ else .error s!"kind must fit in u32, got {value}"

theorem value_injective : Function.Injective value := by
  intro ⟨a, ha⟩ ⟨b, hb⟩ hab
  cases hab
  rfl

instance : LinearOrder Kind :=
  LinearOrder.lift' value value_injective

@[simp] theorem new_value (kind : Kind) : new kind.value = .ok kind := by
  unfold new
  rw [dif_pos kind.lt]

/-- A number builds a kind exactly when it is one's number. -/
theorem new_eq_ok {value : Nat} {kind : Kind} : new value = .ok kind ↔ kind.value = value := by
  refine ⟨fun h => ?_, fun h => h ▸ new_value kind⟩
  unfold new at h
  split at h
  · cases h
    rfl
  · cases h

/-- The ephemeral kinds, whose events are passed on and never stored. -/
def isEphemeral (kind : Kind) : Bool :=
  20000 ≤ kind.value && kind.value ≤ 29999

end Kind

/-- Seconds since the epoch. -/
abbrev UnixTimestamp : Type := Nat

end Tangle
