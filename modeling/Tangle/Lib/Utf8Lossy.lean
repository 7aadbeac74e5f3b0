import Mathlib.Data.Char
import Mathlib.Data.List.Basic
import Mathlib.Data.UInt

/-!
# Lossy decoding of UTF-8

Bytes become text by decoding every sequence that is UTF-8 and putting the replacement character for
every longest beginning of a sequence that is not. The text has an ASCII character only where the
bytes have it.
-/

namespace Tangle

/-- What stands for bytes that are no character. -/
def replacementCharacter : Char := '\uFFFD'

/-- How a sequence goes on after its first byte: the bits that this byte gives, the range of the
second byte, and the number of bytes after that. -/
def utf8Sequence (first : UInt8) : Option (Nat × (UInt8 × UInt8) × Nat) :=
  if 0xC2 ≤ first ∧ first ≤ 0xDF then some (first.toNat - 0xC0, (0x80, 0xBF), 0)
  else if first = 0xE0 then some (0, (0xA0, 0xBF), 1)
  else if first = 0xED then some (0xD, (0x80, 0x9F), 1)
  else if 0xE1 ≤ first ∧ first ≤ 0xEF then some (first.toNat - 0xE0, (0x80, 0xBF), 1)
  else if first = 0xF0 then some (0, (0x90, 0xBF), 2)
  else if 0xF1 ≤ first ∧ first ≤ 0xF3 then some (first.toNat - 0xF0, (0x80, 0xBF), 2)
  else if first = 0xF4 then some (4, (0x80, 0x8F), 2)
  else none

/-- The last bytes of a sequence, each of which gives six bits. -/
def utf8Continue : Nat → Nat → List UInt8 → Char × List UInt8
  | 0, code, bytes => (Char.ofNat code, bytes)
  | _ + 1, _, [] => (replacementCharacter, [])
  | more + 1, code, byte :: bytes =>
    if 0x80 ≤ byte ∧ byte ≤ 0xBF then
      utf8Continue more (code * 64 + byte.toNat % 64) bytes
    else
      (replacementCharacter, byte :: bytes)

/-- The first character of a text, and the bytes after it. -/
def utf8First (first : UInt8) (bytes : List UInt8) : Char × List UInt8 :=
  if first < 0x80 then
    (Char.ofNat first.toNat, bytes)
  else
    match utf8Sequence first, bytes with
    | some (code, (low, high), more), second :: bytes =>
      if low ≤ second ∧ second ≤ high then
        utf8Continue more (code * 64 + second.toNat % 64) bytes
      else
        (replacementCharacter, second :: bytes)
    | _, bytes => (replacementCharacter, bytes)

/-- `String::from_utf8_lossy`, of as many characters as there is fuel for. -/
def fromUtf8LossyWith : Nat → List UInt8 → List Char
  | _, [] | 0, _ => []
  | fuel + 1, first :: bytes =>
    (utf8First first bytes).1 :: fromUtf8LossyWith fuel (utf8First first bytes).2

/-- `String::from_utf8_lossy`: no text has more characters than bytes. -/
def fromUtf8Lossy (bytes : List UInt8) : List Char :=
  fromUtf8LossyWith bytes.length bytes

/-- Some text is read from any bytes. -/
theorem fromUtf8Lossy_ne_nil {bytes : List UInt8} (h : bytes ≠ []) : fromUtf8Lossy bytes ≠ [] := by
  cases bytes with
  | nil => exact absurd rfl h
  | cons first bytes => exact List.cons_ne_nil _ _

/-! ## ASCII characters -/

/-- What is left after a sequence is part of the bytes. -/
theorem utf8Continue_subset {more code : Nat} {bytes : List UInt8} :
    (utf8Continue more code bytes).2 ⊆ bytes := by
  induction more generalizing code bytes with
  | zero => exact fun _ h => h
  | succ more ih =>
    cases bytes with
    | nil => exact fun _ h => h
    | cons byte bytes =>
      rw [utf8Continue]
      split
      · exact fun _ h => List.mem_cons_of_mem _ (ih h)
      · exact fun _ h => h

/-- What is left after a first byte is part of the bytes. -/
theorem utf8First_subset {first : UInt8} {bytes : List UInt8} :
    (utf8First first bytes).2 ⊆ bytes := by
  unfold utf8First
  split
  · exact fun _ h => h
  · split
    · split
      · exact fun _ h => List.mem_cons_of_mem _ (utf8Continue_subset h)
      · exact fun _ h => h
    · exact fun _ h => h

/-- A code is not read as another's character. -/
theorem ofNat_ne {code : Nat} {c : Char} (hc : 0 < c.toNat) (hcode : code ≠ c.toNat) :
    Char.ofNat code ≠ c := by
  intro heq
  subst heq
  by_cases hvalid : code.isValidChar
  · rw [Char.ofNat, dif_pos hvalid] at hcode
    exact hcode rfl
  · rw [Char.ofNat, dif_neg hvalid] at hc
    exact absurd hc (by decide)

/-- No sequence of several bytes is read as a character of one. -/
theorem utf8Continue_ne {more code : Nat} {bytes : List UInt8} {c : Char} (hc : 0 < c.toNat)
    (hascii : c.toNat < 0x80) (hcode : if more = 0 then 0x80 ≤ code else 2 ≤ code) :
    (utf8Continue more code bytes).1 ≠ c := by
  have hreplacement : replacementCharacter ≠ c := by
    intro heq
    subst heq
    exact absurd hascii (by decide)
  induction more generalizing code bytes with
  | zero =>
    have hcode : 0x80 ≤ code := hcode
    exact ofNat_ne hc (by omega)
  | succ more ih =>
    cases bytes with
    | nil => exact hreplacement
    | cons byte bytes =>
      rw [utf8Continue]
      have hcode : 2 ≤ code := hcode
      split
      · refine ih ?_
        split <;> omega
      · exact hreplacement

/-- What the first two bytes of a sequence give. -/
theorem le_of_utf8Sequence {first low high second : UInt8} {code more : Nat}
    (h : utf8Sequence first = some (code, (low, high), more)) (hlow : low ≤ second)
    (hhigh : second ≤ high) :
    if more = 0 then 0x80 ≤ code * 64 + second.toNat % 64
    else 2 ≤ code * 64 + second.toNat % 64 := by
  have hlow' : low.toNat ≤ second.toNat := hlow
  have hhigh' : second.toNat ≤ high.toNat := hhigh
  unfold utf8Sequence at h
  split at h
  · next hfirst =>
    have hfrom : (0xC2 : Nat) ≤ first.toNat := hfirst.1
    simp only [Option.some.injEq, Prod.mk.injEq] at h
    rw [if_pos h.2.2.symm]
    omega
  split at h
  · simp only [Option.some.injEq, Prod.mk.injEq] at h
    obtain ⟨rfl, ⟨rfl, rfl⟩, rfl⟩ := h
    have hlow : 0xA0 ≤ second.toNat := hlow'
    have hhigh : second.toNat ≤ 0xBF := hhigh'
    rw [if_neg (by decide)]
    omega
  split at h
  · simp only [Option.some.injEq, Prod.mk.injEq] at h
    rw [if_neg (by omega)]
    omega
  split at h
  · next hfirst =>
    have hfrom : (0xE1 : Nat) ≤ first.toNat := hfirst.1
    simp only [Option.some.injEq, Prod.mk.injEq] at h
    rw [if_neg (by omega)]
    omega
  split at h
  · simp only [Option.some.injEq, Prod.mk.injEq] at h
    obtain ⟨rfl, ⟨rfl, rfl⟩, rfl⟩ := h
    have hlow : 0x90 ≤ second.toNat := hlow'
    have hhigh : second.toNat ≤ 0xBF := hhigh'
    rw [if_neg (by decide)]
    omega
  split at h
  · next hfirst =>
    have hfrom : (0xF1 : Nat) ≤ first.toNat := hfirst.1
    simp only [Option.some.injEq, Prod.mk.injEq] at h
    rw [if_neg (by omega)]
    omega
  split at h
  · simp only [Option.some.injEq, Prod.mk.injEq] at h
    rw [if_neg (by omega)]
    omega
  · cases h

/-- A first byte is read as a character of one byte only when it is that byte. -/
theorem utf8First_ne {first : UInt8} {bytes : List UInt8} {c : Char} (hc : 0 < c.toNat)
    (hascii : c.toNat < 0x80) (hfirst : first.toNat ≠ c.toNat) : (utf8First first bytes).1 ≠ c := by
  have hreplacement : replacementCharacter ≠ c := by
    intro heq
    subst heq
    exact absurd hascii (by decide)
  unfold utf8First
  split
  · exact ofNat_ne hc hfirst
  · split
    · next code low high more second bytes hsequence =>
      split
      · next hsecond =>
        exact utf8Continue_ne hc hascii (le_of_utf8Sequence hsequence hsecond.1 hsecond.2)
      · exact hreplacement
    · exact hreplacement

/-- An ASCII character of the text is a byte. -/
theorem not_mem_fromUtf8Lossy {bytes : List UInt8} {c : Char} (hc : 0 < c.toNat)
    (hascii : c.toNat < 0x80) (h : ∀ byte ∈ bytes, byte.toNat ≠ c.toNat) :
    c ∉ fromUtf8Lossy bytes := by
  unfold fromUtf8Lossy
  generalize bytes.length = fuel
  induction fuel generalizing bytes with
  | zero => cases bytes <;> exact List.not_mem_nil
  | succ fuel ih =>
    cases bytes with
    | nil => exact List.not_mem_nil
    | cons first bytes =>
      rw [fromUtf8LossyWith, List.mem_cons]
      intro hmem
      rcases hmem with heq | hmem
      · exact utf8First_ne hc hascii (h first List.mem_cons_self) heq.symm
      · exact ih (fun byte hbyte => h byte (List.mem_cons_of_mem _ (utf8First_subset hbyte))) hmem

end Tangle
