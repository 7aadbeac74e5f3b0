import Mathlib.Order.Lex
import Mathlib.Data.List.Lex
import Mathlib.Data.Char
import Mathlib.Algebra.BigOperators.Group.List.Basic
import Mathlib.Algebra.GroupWithZero.Nat

/-!
# Strings as the program reads them

The program's strings are UTF-8 and it asks four things of them: how long they are in bytes, what
is left when the white space at both ends is trimmed, whether a character is a control character,
and which number they spell. `Text` is a string as the list of its characters; the order of `Text`
is the order of the characters' code points, which is the byte order of the encodings.
-/

namespace Tangle

/-- A string, as the list of its characters. -/
abbrev Text : Type := List Char

namespace Text

/-- The length of the UTF-8 encoding (Rust's `str::len`). -/
def byteLen (value : Text) : Nat :=
  (value.map Char.utf8Size).sum

@[simp] theorem byteLen_nil : byteLen [] = 0 := rfl
@[simp] theorem byteLen_cons (c : Char) (value : Text) :
    byteLen (c :: value) = c.utf8Size + byteLen value := rfl
@[simp] theorem byteLen_append (a b : Text) : byteLen (a ++ b) = byteLen a + byteLen b := by
  simp [byteLen]

/-- A character takes at least one byte. -/
theorem length_le_byteLen (value : Text) : value.length ≤ value.byteLen := by
  induction value with
  | nil => simp
  | cons c rest ih =>
    have := c.utf8Size_pos
    simp only [List.length_cons, byteLen_cons]
    omega

/-- The characters of Unicode's `White_Space` property (Rust's `char::is_whitespace`). -/
def isWhitespace (c : Char) : Bool :=
  let n := c.toNat
  (0x09 ≤ n && n ≤ 0x0D) || n == 0x20 || n == 0x85 || n == 0xA0 || n == 0x1680 ||
    (0x2000 ≤ n && n ≤ 0x200A) || n == 0x2028 || n == 0x2029 || n == 0x202F || n == 0x205F ||
    n == 0x3000

/-- The characters of Unicode's category `Cc` (Rust's `char::is_control`). -/
def isControl (c : Char) : Bool :=
  let n := c.toNat
  n ≤ 0x1F || (0x7F ≤ n && n ≤ 0x9F)

/-- The text without the white space at its two ends (Rust's `str::trim`). -/
def trim (value : Text) : Text :=
  ((value.dropWhile isWhitespace).reverse.dropWhile isWhitespace).reverse

/-- The value of a decimal digit. -/
def digit? (c : Char) : Option Nat :=
  if '0' ≤ c ∧ c ≤ '9' then some (c.toNat - '0'.toNat) else none

/-- The number a text of digits spells, when it spells one below `bound`. -/
def digits? (bound : Nat) : Text → Nat → Option Nat
  | [], acc => some acc
  | c :: rest, acc => do
    let d ← digit? c
    if acc * 10 + d < bound then digits? bound rest (acc * 10 + d) else none

/-- The unsigned number below `2 ^ 64` a text spells (Rust's `str::parse::<u64>`): one digit or
more, after at most one plus sign. -/
def parseU64 : Text → Option Nat
  | [] => none
  | ['+'] => none
  | '+' :: rest => digits? (2 ^ 64) rest 0
  | value => digits? (2 ^ 64) value 0

/-- A number spelled in decimal digits (Rust's `u32::to_string`). -/
def ofNat (n : Nat) : Text :=
  Nat.toDigits 10 n

theorem digit?_lt {c : Char} {d : Nat} (h : digit? c = some d) : d < 10 := by
  unfold digit? at h
  split at h
  · next hc =>
    have hle : c.toNat ≤ '9'.toNat := hc.2
    have hnine : '9'.toNat = 57 := rfl
    have hzero : '0'.toNat = 48 := rfl
    cases h
    omega
  · cases h

/-- A text of digits spells a number of no more digits. -/
theorem digits?_lt {bound n : Nat} {value : Text} {acc : Nat}
    (h : digits? bound value acc = some n) : n < (acc + 1) * 10 ^ value.length := by
  induction value generalizing acc with
  | nil =>
    cases h
    simp
  | cons c rest ih =>
    obtain ⟨d, hd, h⟩ := Option.bind_eq_some_iff.mp h
    split at h
    · have hlt := digit?_lt hd
      calc n < (acc * 10 + d + 1) * 10 ^ rest.length := ih h
        _ ≤ ((acc + 1) * 10) * 10 ^ rest.length := Nat.mul_le_mul_right _ (by omega)
        _ = (acc + 1) * 10 ^ (c :: rest).length := by
          rw [List.length_cons, Nat.pow_succ', Nat.mul_assoc]
    · cases h

/-- Decimal digits take one byte each. -/
theorem byteLen_ofNat (n : Nat) : byteLen (ofNat n) = (ofNat n).length := by
  have hone : ∀ c ∈ ofNat n, Char.utf8Size c = 1 := by
    intro c hc
    have hdigit : c.isDigit = true :=
      Nat.isDigit_of_mem_toDigits (by decide) (by decide) hc
    have hle : c.val ≤ 127 := by
      rw [Char.isDigit, Bool.and_eq_true, decide_eq_true_eq, decide_eq_true_eq] at hdigit
      exact UInt32.le_trans hdigit.2 (by decide)
    simp [Char.utf8Size, hle]
  rw [byteLen, List.map_congr_left hone]
  simp

/-- A number is spelled in no more bytes than a text it was read from. -/
theorem byteLen_ofNat_le {value : Text} {n : Nat} (h : parseU64 value = some n) :
    byteLen (ofNat n) ≤ byteLen value := by
  have hdigits : ∀ rest : Text, rest ≠ [] → digits? (2 ^ 64) rest 0 = some n →
      byteLen (ofNat n) ≤ byteLen rest := by
    intro rest hne hrest
    have hlt : n < 10 ^ rest.length := by simpa using digits?_lt hrest
    have hpos : 0 < rest.length := List.length_pos_iff.mpr hne
    have hlen : (ofNat n).length ≤ rest.length :=
      (Nat.length_toDigits_le_iff (by decide) hpos).mpr hlt
    rw [byteLen_ofNat]
    exact le_trans hlen (length_le_byteLen rest)
  unfold parseU64 at h
  split at h
  · cases h
  · cases h
  · next rest hplus =>
    have hne : rest ≠ [] := fun hnil => hplus (by rw [hnil])
    rw [byteLen_cons]
    exact le_trans (hdigits rest hne h) (Nat.le_add_left _ _)
  · next hnil _ _ => exact hdigits value hnil h

/-- The text as a Lean string, for a message. -/
def toMessage (value : Text) : String :=
  String.ofList value

end Text

end Tangle
