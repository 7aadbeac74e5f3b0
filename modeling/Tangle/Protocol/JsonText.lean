import Tangle.Protocol.Json

/-!
# JSON text

Values printed without white space, and a reader for what is printed: a text of the printed
characters is read as the value and what stands after it (`readValue_printValue`). Floats are not
printed, and the fields of an object may stand in any order (`Printable`). The pair is an instance
of what the development assumes of the JSON library (`compactJson_inverse`).

Values are also printed over lines with indentation (`prettyValue`). Without the white space between
its tokens such a text is the one on a line (`withoutSpace_prettyValue`), so it is read as the same
value.
-/

namespace Tangle

namespace JsonText

/-! ## Texts -/

/-- A character of a text as it is printed. -/
def escapeChar (c : Char) : Text :=
  if c = '"' then ['\\', '"']
  else if c = '\\' then ['\\', '\\']
  else if c = '\x08' then ['\\', 'b']
  else if c = '\t' then ['\\', 't']
  else if c = '\n' then ['\\', 'n']
  else if c = '\x0c' then ['\\', 'f']
  else if c = '\r' then ['\\', 'r']
  else if c.toNat < 0x20 then
    ['\\', 'u', '0', '0', (c.toNat / 16).digitChar, (c.toNat % 16).digitChar]
  else [c]

/-- A string between quotation marks, with its characters escaped. -/
def printString (value : Text) : Text :=
  '"' :: (value.flatMap escapeChar ++ ['"'])

/-- The character a letter after a backslash stands for. -/
def unescape? : Char → Option Char
  | '"' => some '"'
  | '\\' => some '\\'
  | 'b' => some '\x08'
  | 't' => some '\t'
  | 'n' => some '\n'
  | 'f' => some '\x0c'
  | 'r' => some '\r'
  | _ => none

/-- The control character two digits stand for. -/
def control? (high low : Char) : Option Char :=
  ((List.range 0x20).find? fun n =>
    (n / 16).digitChar = high ∧ (n % 16).digitChar = low).map Char.ofNat

/-- Reads a text up to its closing quote. -/
def readString : Text → Option (Text × Text)
  | [] => none
  | '"' :: rest => some ([], rest)
  | '\\' :: 'u' :: '0' :: '0' :: high :: low :: rest => do
    let c ← control? high low
    let (value, rest) ← readString rest
    some (c :: value, rest)
  | '\\' :: letter :: rest => do
    let c ← unescape? letter
    let (value, rest) ← readString rest
    some (c :: value, rest)
  | c :: rest => do
    let (value, rest) ← readString rest
    some (c :: value, rest)

/-- The two digits of a control character are read as the character. -/
theorem control?_digits : ∀ n < 0x20,
    control? (n / 16).digitChar (n % 16).digitChar = some (Char.ofNat n) := by
  decide

/-- A printed character is read back. -/
theorem readString_escapeChar (c : Char) (rest : Text) :
    readString (escapeChar c ++ rest) =
      (readString rest).map fun read => (c :: read.1, read.2) := by
  have hbind : ∀ (x : Option (Text × Text)),
      (do let (value, rest) ← x; some (c :: value, rest)) =
        x.map fun read => (c :: read.1, read.2) := by
    intro x
    cases x <;> rfl
  unfold escapeChar
  split_ifs with hquote hback hb ht hn hf hr hcontrol
  · subst hquote; rw [← hbind]; rfl
  · subst hback; rw [← hbind]; rfl
  · subst hb; rw [← hbind]; rfl
  · subst ht; rw [← hbind]; rfl
  · subst hn; rw [← hbind]; rfl
  · subst hf; rw [← hbind]; rfl
  · subst hr; rw [← hbind]; rfl
  · have hread : control? (c.toNat / 16).digitChar (c.toNat % 16).digitChar = some c := by
      rw [control?_digits c.toNat hcontrol, Char.ofNat_toNat]
    rw [← hbind]
    simp only [List.cons_append, List.nil_append]
    rw [readString, hread]
    rfl
  · rw [← hbind]
    simp only [List.cons_append, List.nil_append]
    rw [readString.eq_def]
    split <;> simp_all

/-- **A printed string is read back**, and what follows it is left: no escape of a character begins
with a quotation mark. -/
theorem readString_printString (value rest : Text) :
    readString (value.flatMap escapeChar ++ '"' :: rest) = some (value, rest) := by
  induction value with
  | nil => rfl
  | cons c value ih =>
    rw [List.flatMap_cons, List.append_assoc, readString_escapeChar, ih]
    rfl

/-! ## Numbers -/

/-- What stands after a number: not another digit. -/
def Stops (rest : Text) : Prop :=
  ∀ c ∈ rest.head?, ¬ c.isDigit

/-- Reads the digits a text starts with as a number. -/
def readDigits (text : Text) : Option (Nat × Text) :=
  match text.takeWhile Char.isDigit with
  | [] => none
  | digits => some (Nat.ofDigitChars 10 digits 0, text.dropWhile Char.isDigit)

/-- The digits of a number are read as the number where no digit follows them. -/
theorem readDigits_ofNat (n : Nat) {rest : Text} (h : Stops rest) :
    readDigits (Text.ofNat n ++ rest) = some (n, rest) := by
  have hdigits : ∀ c ∈ Text.ofNat n, c.isDigit :=
    fun c hc => Nat.isDigit_of_mem_toDigits (by decide) (by decide) hc
  have hnone : rest.takeWhile Char.isDigit = [] ∧ rest.dropWhile Char.isDigit = rest := by
    cases rest with
    | nil => exact ⟨rfl, rfl⟩
    | cons c rest =>
      have hc : c.isDigit = false := by simpa using h c rfl
      simp [hc]
  have htake : (Text.ofNat n ++ rest).takeWhile Char.isDigit = Text.ofNat n := by
    rw [List.takeWhile_append_of_pos hdigits, hnone.1, List.append_nil]
  have hdrop : (Text.ofNat n ++ rest).dropWhile Char.isDigit = rest := by
    rw [List.dropWhile_append_of_pos hdigits, hnone.2]
  have hne : Text.ofNat n ≠ [] := Nat.toDigits_ne_nil
  unfold readDigits
  rw [htake, hdrop]
  split
  · next hnil => exact absurd hnil hne
  · rw [Text.ofNat, Nat.ofDigitChars_ten_toDigits]

/-! ## Lists -/

/-- Printed items between commas, and the bracket that closes them. -/
def printList (close : Char) : List Text → Text
  | [] => [close]
  | part :: parts => part ++ (parts.flatMap (fun part => ',' :: part) ++ [close])

section

variable {α : Type}

/-- Reads what follows the first item of a list. -/
def readTail (readItem : Text → Option (α × Text)) (close : Char) :
    Nat → Text → Option (List α × Text)
  | fuel + 1, c :: rest =>
    if c = close then some ([], rest)
    else if c = ',' then do
      let (item, rest) ← readItem rest
      let (items, rest) ← readTail readItem close fuel rest
      some (item :: items, rest)
    else none
  | _, _ => none

/-- Reads a list after its opening bracket. -/
def readList (readItem : Text → Option (α × Text)) (close : Char) (fuel : Nat) (text : Text) :
    Option (List α × Text) :=
  if text.head? = some close then some ([], text.tail)
  else do
    let (item, rest) ← readItem text
    let (items, rest) ← readTail readItem close fuel rest
    some (item :: items, rest)

/-- A part of a list that is read as an item, whatever follows it there. -/
def Part (readItem : Text → Option (α × Text)) (close : Char) (part : Text) (item : α) : Prop :=
  (part.head? ≠ none ∧ part.head? ≠ some close) ∧
    ∀ rest : Text, (rest.head? = some ',' ∨ rest.head? = some close) →
      readItem (part ++ rest) = some (item, rest)

variable {readItem : Text → Option (α × Text)} {close : Char} {parts : List Text} {items : List α}

/-- What follows a first item is a comma or the bracket that closes. -/
theorem head?_tail (close : Char) (parts : List Text) (rest : Text) :
    (parts.flatMap (fun part => ',' :: part) ++ close :: rest).head? = some ',' ∨
      (parts.flatMap (fun part => ',' :: part) ++ close :: rest).head? = some close := by
  cases parts with
  | nil => exact .inr rfl
  | cons part parts => exact .inl rfl

/-- The items after the first are read as they were printed. By induction on the parts: each begins
with a comma, which no bracket is. -/
theorem readTail_printed (hclose : close ≠ ',') (h : List.Forall₂ (Part readItem close) parts items)
    {fuel : Nat} (hfuel : parts.length < fuel) (rest : Text) :
    readTail readItem close fuel (parts.flatMap (fun part => ',' :: part) ++ close :: rest) =
      some (items, rest) := by
  induction h generalizing fuel with
  | nil =>
    obtain ⟨fuel, rfl⟩ := Nat.exists_eq_add_of_lt hfuel
    rw [List.flatMap_nil, List.nil_append, readTail, if_pos rfl]
  | @cons part item parts items hpart _ ih =>
    obtain ⟨fuel, rfl⟩ := Nat.exists_eq_add_of_lt (Nat.zero_lt_of_lt hfuel)
    rw [List.length_cons] at hfuel
    have hread := hpart.2 _ (head?_tail close parts rest)
    have hrest := @ih (0 + fuel) (by omega)
    rw [List.flatMap_cons, List.append_assoc, List.cons_append, readTail,
      if_neg hclose.symm, if_pos rfl, hread]
    simp only [Option.bind_eq_bind, Option.bind_some, hrest]

/-- **A printed list is read back** when each of its parts is, whatever its brackets. -/
theorem readList_printList (hclose : close ≠ ',')
    (h : List.Forall₂ (Part readItem close) parts items) {fuel : Nat}
    (hfuel : parts.length ≤ fuel) (rest : Text) :
    readList readItem close fuel (printList close parts ++ rest) = some (items, rest) := by
  cases h with
  | nil => simp [printList, readList]
  | @cons part item parts items hpart hparts =>
    have hread := hpart.2 _ (head?_tail close parts rest)
    have htail := readTail_printed hclose hparts (Nat.lt_of_succ_le hfuel) rest
    have hhead : (part ++ (parts.flatMap (fun part => ',' :: part) ++ close :: rest)).head? ≠
        some close := by
      obtain ⟨hne, hfirst⟩ := hpart.1
      cases part with
      | nil => exact absurd rfl hne
      | cons c part => exact hfirst
    rw [printList, List.append_assoc, List.append_assoc, List.singleton_append, readList,
      if_neg hhead, hread]
    simp only [Option.bind_eq_bind, Option.bind_some, htail]

/-- The parts of a list are fewer than the characters it is printed with. -/
theorem length_le_printList (h : List.Forall₂ (Part readItem close) parts items) :
    parts.length ≤ (printList close parts).length := by
  have htail : ∀ parts : List Text,
      parts.length ≤ (parts.flatMap fun part => ',' :: part).length := by
    intro parts
    induction parts with
    | nil => exact Nat.le_refl 0
    | cons part parts ih =>
      rw [List.flatMap_cons, List.length_append, List.length_cons, List.length_cons]
      omega
  cases h with
  | nil => exact Nat.zero_le _
  | @cons part item parts items hpart hparts =>
    have hle := htail parts
    rw [printList, List.length_append, List.length_append, List.length_cons,
      List.length_singleton]
    omega

/-- A part of a list is no longer than the list is printed. -/
theorem length_part_le {part : Text} (close : Char) (h : part ∈ parts) :
    part.length ≤ (printList close parts).length := by
  have htail : ∀ {parts : List Text}, part ∈ parts →
      part.length ≤ (parts.flatMap fun part => ',' :: part).length := by
    intro parts h
    induction parts with
    | nil => exact (nomatch h)
    | cons first parts ih =>
      rw [List.flatMap_cons, List.length_append, List.length_cons]
      rcases List.mem_cons.mp h with rfl | h
      · omega
      · have hle := ih h
        omega
  cases parts with
  | nil => exact (nomatch h)
  | cons first parts =>
    rw [printList, List.length_append, List.length_append]
    rcases List.mem_cons.mp h with rfl | h
    · omega
    · have hle := htail h
      omega

end

/-! ## Values -/

/-- Prints a number: digits, with a sign before a negative one. -/
def printNumber : JsonNumber → Text
  | .posInt value => Text.ofNat value.toNat
  | .negInt value _ => '-' :: Text.ofNat value.toInt.natAbs
  | .float _ => []

mutual

/-- How `to_string` prints a value. -/
def printValue : JsonValue → Text
  | .null => "null".toList
  | .bool true => "true".toList
  | .bool false => "false".toList
  | .number value => printNumber value
  | .string value => printString value
  | .array items => '[' :: printList ']' (printItems items)
  | .object fields => '{' :: printList '}' (printFields fields)

/-- The items of an array, each printed. -/
def printItems : List JsonValue → List Text
  | [] => []
  | item :: items => printValue item :: printItems items

/-- The fields of an object, each printed with its name. -/
def printFields : List (Text × JsonValue) → List Text
  | [] => []
  | (name, value) :: fields => (printString name ++ ':' :: printValue value) :: printFields fields

end

/-- Reads a word that stands for a value. -/
def readLiteral (literal : String) (value : JsonValue) (text : Text) :
    Option (JsonValue × Text) :=
  if literal.toList.isPrefixOf text then some (value, text.drop literal.length) else none

/-- Reads a field of an object with the reader of its value. -/
def readField (readItem : Text → Option (JsonValue × Text)) :
    Text → Option ((Text × JsonValue) × Text)
  | '"' :: text => do
    let (name, rest) ← readString text
    match rest with
    | ':' :: rest => do
      let (value, rest) ← readItem rest
      some ((name, value), rest)
    | _ => none
  | _ => none

/-- Reads a number, with or without a sign. -/
def readNumber (text : Text) : Option (JsonValue × Text) :=
  match text with
  | '-' :: text => do
    let (n, rest) ← readDigits text
    if h : Int64.ofInt (-n) < 0 then some (.number (.negInt _ h), rest) else none
  | text => do
    let (n, rest) ← readDigits text
    some (.number (.posInt (UInt64.ofNat n)), rest)

/-- Reads the value a text starts with. -/
def readValue : Nat → Text → Option (JsonValue × Text)
  | 0, _ => none
  | fuel + 1, text =>
    match text with
    | '"' :: rest => do
      let (value, rest) ← readString rest
      some (.string value, rest)
    | '[' :: rest => do
      let (items, rest) ← readList (readValue fuel) ']' fuel rest
      some (.array items, rest)
    | '{' :: rest => do
      let (fields, rest) ← readList (readField (readValue fuel)) '}' fuel rest
      some (.object fields, rest)
    | 'n' :: _ => readLiteral "null" .null text
    | 't' :: _ => readLiteral "true" (.bool true) text
    | 'f' :: _ => readLiteral "false" (.bool false) text
    | text => readNumber text

/-- Digits stop before a comma or a bracket. -/
theorem stops_of_head {rest : Text} {c : Char} (hc : c.isDigit = false)
    (h : rest.head? = some ',' ∨ rest.head? = some c) : Stops rest := by
  intro c' hc' hdigit
  rcases h with h | h
  · cases hc'.symm.trans h
    exact absurd hdigit (by decide)
  · cases hc'.symm.trans h
    exact absurd (hc.symm.trans hdigit) Bool.false_ne_true

/-- Digits are none of the characters the other values start with. -/
theorem head_ofNat (n : Nat) : ∃ c rest, Text.ofNat n = c :: rest ∧ c.isDigit := by
  cases hdigits : Text.ofNat n with
  | nil => exact absurd hdigits Nat.toDigits_ne_nil
  | cons c rest =>
    have hmem : c ∈ Nat.toDigits 10 n := by
      rw [← Text.ofNat, hdigits]
      exact List.mem_cons_self ..
    exact ⟨c, rest, rfl, Nat.isDigit_of_mem_toDigits (by decide) (by decide) hmem⟩

/-- A value without floats; the fields of its objects are in any order. -/
inductive Printable : JsonValue → Prop
  | null : Printable .null
  | bool (value : Bool) : Printable (.bool value)
  | posInt (value : UInt64) : Printable (.number (.posInt value))
  | negInt (value : Int64) (negative : value < 0) : Printable (.number (.negInt value negative))
  | string (value : Text) : Printable (.string value)
  | array {items : List JsonValue} (each : ∀ item ∈ items, Printable item) :
      Printable (.array items)
  | object {fields : List (Text × JsonValue)} (each : ∀ field ∈ fields, Printable field.2) :
      Printable (.object fields)

/-- A value whose objects are those of maps is printed. -/
theorem printable_of_canonical {value : JsonValue} (h : value.Canonical) : Printable value := by
  induction h with
  | null => exact .null
  | bool value => exact .bool value
  | posInt value => exact .posInt value
  | negInt value negative => exact .negInt value negative
  | string value => exact .string value
  | array _ ih => exact .array ih
  | object _ _ ih => exact .object ih

/-- What a value is printed as starts with no closing bracket. -/
theorem head_printValue {value : JsonValue} (h : Printable value) :
    ∃ c rest, printValue value = c :: rest ∧ c ≠ ']' ∧ c ≠ '}' := by
  cases h with
  | null => exact ⟨'n', "ull".toList, by simp [printValue], by decide, by decide⟩
  | bool value =>
    cases value with
    | true => exact ⟨'t', "rue".toList, by simp [printValue], by decide, by decide⟩
    | false => exact ⟨'f', "alse".toList, by simp [printValue], by decide, by decide⟩
  | posInt value =>
    obtain ⟨c, rest, heq, hdigit⟩ := head_ofNat value.toNat
    refine ⟨c, rest, by rw [printValue, printNumber, heq], ?_, ?_⟩
    · rintro rfl
      exact absurd hdigit (by decide)
    · rintro rfl
      exact absurd hdigit (by decide)
  | negInt value negative =>
    exact ⟨'-', _, by rw [printValue, printNumber], by decide, by decide⟩
  | string value => exact ⟨'"', _, by rw [printValue, printString], by decide, by decide⟩
  | array each => exact ⟨'[', _, by rw [printValue], by decide, by decide⟩
  | object each => exact ⟨'{', _, by rw [printValue], by decide, by decide⟩

/-- A printed number is read back where no digit follows it. -/
theorem readNumber_printNumber {rest : Text} (hstops : Stops rest) (number : JsonNumber)
    (h : Printable (.number number)) :
    readNumber (printNumber number ++ rest) = some (.number number, rest) := by
  cases h with
  | posInt value =>
    obtain ⟨c, digits, heq, hdigit⟩ := head_ofNat value.toNat
    have hread := readDigits_ofNat value.toNat hstops
    rw [printNumber, readNumber.eq_def]
    rw [heq] at hread ⊢
    split
    · next hminus =>
      cases hminus
      exact absurd hdigit (by decide)
    · rw [hread]
      simp
  | negInt value negative =>
    have hread := readDigits_ofNat value.toInt.natAbs hstops
    have hneg : -(value.toInt.natAbs : Int) = value.toInt := by
      have hlt : value.toInt < 0 := Int64.lt_iff_toInt_lt.mp negative
      omega
    have hback : Int64.ofInt (-(value.toInt.natAbs : Int)) = value := by
      rw [hneg, Int64.ofInt_toInt]
    simp only [printNumber, List.cons_append, readNumber, hread, Option.bind_eq_bind,
      Option.bind_some]
    rw [dif_pos (by rw [hback]; exact negative)]
    simp only [hback]

/-- Items are printed one by one. -/
theorem printItems_eq (items : List JsonValue) : printItems items = items.map printValue := by
  induction items with
  | nil => rw [printItems, List.map_nil]
  | cons item items ih => rw [printItems, ih, List.map_cons]

/-- Fields are printed one by one. -/
theorem printFields_eq (fields : List (Text × JsonValue)) :
    printFields fields =
      fields.map fun field => printString field.1 ++ ':' :: printValue field.2 := by
  induction fields with
  | nil => rw [printFields, List.map_nil]
  | cons field fields ih => rw [printFields, ih, List.map_cons]

/-- A printed item is read as the item wherever it stands in an array. -/
theorem part_item {item : JsonValue} {fuel : Nat} (hprintable : Printable item)
    (h : ∀ rest, Stops rest → readValue fuel (printValue item ++ rest) = some (item, rest)) :
    Part (readValue fuel) ']' (printValue item) item := by
  refine ⟨?_, fun rest hrest => h rest (stops_of_head (by decide) hrest)⟩
  obtain ⟨c, text, heq, hne, -⟩ := head_printValue hprintable
  rw [heq]
  exact ⟨Option.some_ne_none c, fun hhead => hne (Option.some.inj hhead)⟩

/-- A printed field is read as the field wherever it stands in an object. -/
theorem part_field {field : Text × JsonValue} {fuel : Nat}
    (h : ∀ rest, Stops rest →
      readValue fuel (printValue field.2 ++ rest) = some (field.2, rest)) :
    Part (readField (readValue fuel)) '}' (printString field.1 ++ ':' :: printValue field.2)
      field := by
  refine ⟨⟨Option.some_ne_none _, by simp [printString]⟩, fun rest hrest => ?_⟩
  have hname := readString_printString field.1 (':' :: (printValue field.2 ++ rest))
  have hvalue := h rest (stops_of_head (by decide) hrest)
  simp only [printString, List.cons_append, List.append_assoc, List.nil_append, readField, hname,
    hvalue, Option.bind_eq_bind, Option.bind_some]

/-- A text that starts as a number does is read as one. -/
theorem readValue_eq_readNumber {fuel : Nat} {c : Char} {text : Text}
    (hc : c.isDigit ∨ c = '-') : readValue (fuel + 1) (c :: text) = readNumber (c :: text) := by
  have hne : ∀ c' : Char, c'.isDigit = false → c' ≠ '-' → c ≠ c' := by
    rintro c' hdigit hminus rfl
    rcases hc with hc | hc
    · exact absurd (hdigit.symm.trans hc) Bool.false_ne_true
    · exact hminus hc
  rw [readValue.eq_def]
  split
  · next heq => cases heq
  · next heq =>
    cases heq
    split
    · next heq => exact absurd (List.cons.inj heq).1 (hne _ (by decide) (by decide))
    · next heq => exact absurd (List.cons.inj heq).1 (hne _ (by decide) (by decide))
    · next heq => exact absurd (List.cons.inj heq).1 (hne _ (by decide) (by decide))
    · next heq => exact absurd (List.cons.inj heq).1 (hne _ (by decide) (by decide))
    · next heq => exact absurd (List.cons.inj heq).1 (hne _ (by decide) (by decide))
    · next heq => exact absurd (List.cons.inj heq).1 (hne _ (by decide) (by decide))
    · rfl

/-- What is printed of a value is read as the value and what stands after it. -/
theorem readValue_printValue {value : JsonValue} (h : Printable value) {fuel : Nat}
    (hfuel : (printValue value).length ≤ fuel) {rest : Text} (hstops : Stops rest) :
    readValue fuel (printValue value ++ rest) = some (value, rest) := by
  obtain ⟨fuel, rfl⟩ : ∃ next, fuel = next + 1 := by
    obtain ⟨c, text, heq, -⟩ := head_printValue h
    rw [heq, List.length_cons] at hfuel
    exact Nat.exists_eq_succ_of_ne_zero (by omega)
  induction h generalizing fuel rest with
  | null => rfl
  | bool value => cases value <;> rfl
  | posInt value =>
    obtain ⟨c, text, heq, hdigit⟩ := head_ofNat value.toNat
    have hread := readNumber_printNumber hstops (.posInt value) (.posInt value)
    rw [printValue]
    rw [printNumber, heq] at hread ⊢
    exact (readValue_eq_readNumber (.inl hdigit)).trans hread
  | negInt value negative =>
    have hread := readNumber_printNumber hstops (.negInt value negative) (.negInt value negative)
    rw [printValue]
    rw [printNumber] at hread ⊢
    exact (readValue_eq_readNumber (.inr rfl)).trans hread
  | string value =>
    have hread := readString_printString value rest
    simp only [printValue, printString, List.cons_append, List.append_assoc, List.nil_append,
      readValue, hread, Option.bind_eq_bind, Option.bind_some]
  | @array items each ih =>
    rw [printValue, List.length_cons] at hfuel
    have hparts : List.Forall₂ (Part (readValue fuel) ']') (printItems items) items := by
      rw [printItems_eq, List.forall₂_map_left_iff]
      refine List.forall₂_same.mpr fun item hitem => part_item (each item hitem) ?_
      intro rest hrest
      have hle : (printValue item).length ≤ (printList ']' (printItems items)).length :=
        length_part_le ']' (printItems_eq items ▸ List.mem_map_of_mem hitem)
      obtain ⟨c, text, heq, -⟩ := head_printValue (each item hitem)
      have hpos : 0 < (printValue item).length := by rw [heq]; exact Nat.succ_pos _
      obtain ⟨next, rfl⟩ := Nat.exists_eq_succ_of_ne_zero (show fuel ≠ 0 by omega)
      exact ih item hitem hrest next (by omega)
    have hlist := readList_printList (by decide) hparts
      (Nat.le_trans (length_le_printList hparts) (Nat.le_of_succ_le_succ hfuel)) rest
    rw [printValue, List.cons_append, readValue]
    simp only [hlist, Option.bind_eq_bind, Option.bind_some]
  | @object fields each ih =>
    rw [printValue, List.length_cons] at hfuel
    have hparts : List.Forall₂ (Part (readField (readValue fuel)) '}') (printFields fields)
        fields := by
      rw [printFields_eq, List.forall₂_map_left_iff]
      refine List.forall₂_same.mpr fun field hfield => part_field ?_
      intro rest hrest
      have hle : (printString field.1 ++ ':' :: printValue field.2).length ≤
          (printList '}' (printFields fields)).length :=
        length_part_le '}' (printFields_eq fields ▸ List.mem_map.mpr ⟨field, hfield, rfl⟩)
      rw [List.length_append, List.length_cons] at hle
      obtain ⟨next, rfl⟩ := Nat.exists_eq_succ_of_ne_zero (show fuel ≠ 0 by omega)
      exact ih field hfield hrest next (by omega)
    have hlist := readList_printList (by decide) hparts
      (Nat.le_trans (length_le_printList hparts) (Nat.le_of_succ_le_succ hfuel)) rest
    rw [printValue, List.cons_append, readValue]
    simp only [hlist, Option.bind_eq_bind, Option.bind_some]

/-! ## Lines -/

/-- No escape holds a line break: a line break is escaped itself. -/
theorem newline_not_mem_escapeChar (c : Char) : '\n' ∉ escapeChar c := by
  have hdigit : ∀ n < 16, '\n' ≠ n.digitChar := by decide
  unfold escapeChar
  split_ifs with _ _ _ _ hn
  all_goals first
    | decide
    | skip
  · have hhigh := hdigit (c.toNat / 16) (by omega)
    have hlow := hdigit (c.toNat % 16) (by omega)
    simp [hhigh, hlow]
  · simpa using Ne.symm hn

/-- No printed string holds a line break. -/
theorem newline_not_mem_printString (value : Text) : '\n' ∉ printString value := by
  intro hin
  rcases List.mem_cons.mp hin with heq | hin
  · cases heq
  · rcases List.mem_append.mp hin with hin | hin
    · obtain ⟨c, _, hc⟩ := List.mem_flatMap.mp hin
      exact newline_not_mem_escapeChar c hc
    · cases List.mem_singleton.mp hin

/-- No digit is a line break. -/
theorem newline_not_mem_ofNat (n : Nat) : '\n' ∉ Text.ofNat n := by
  intro hin
  have hdigit := Nat.isDigit_of_mem_toDigits (by decide) (by decide) hin
  cases hdigit

/-- No printed list holds a line break when its parts hold none. -/
theorem newline_not_mem_printList {close : Char} {parts : List Text} (hclose : '\n' ≠ close)
    (h : ∀ part ∈ parts, '\n' ∉ part) : '\n' ∉ printList close parts := by
  cases parts with
  | nil => simpa [printList] using hclose
  | cons part parts =>
    intro hin
    rcases List.mem_append.mp hin with hin | hin
    · exact h part List.mem_cons_self hin
    · rcases List.mem_append.mp hin with hin | hin
      · obtain ⟨other, hother, hin⟩ := List.mem_flatMap.mp hin
        rcases List.mem_cons.mp hin with heq | hin
        · cases heq
        · exact h other (List.mem_cons_of_mem _ hother) hin
      · exact hclose (List.mem_singleton.mp hin)

/-- A printed value stands on one line. -/
theorem newline_not_mem_printValue {value : JsonValue} (h : Printable value) :
    '\n' ∉ printValue value := by
  induction h with
  | null => decide
  | bool value =>
    cases value with
    | true => decide
    | false => decide
  | posInt value => exact newline_not_mem_ofNat _
  | negInt value _ =>
    intro hin
    rcases List.mem_cons.mp hin with heq | hin
    · cases heq
    · exact newline_not_mem_ofNat _ hin
  | string value => exact newline_not_mem_printString value
  | @array items _ ih =>
    have hlist : '\n' ∉ printList ']' (printItems items) := by
      refine newline_not_mem_printList (by decide) fun part hpart => ?_
      rw [printItems_eq] at hpart
      obtain ⟨item, hitem, rfl⟩ := List.mem_map.mp hpart
      exact ih item hitem
    intro hin
    rcases List.mem_cons.mp hin with heq | hin
    · cases heq
    · exact hlist hin
  | @object fields _ ih =>
    have hlist : '\n' ∉ printList '}' (printFields fields) := by
      refine newline_not_mem_printList (by decide) fun part hpart => ?_
      rw [printFields_eq] at hpart
      obtain ⟨field, hfield, rfl⟩ := List.mem_map.mp hpart
      intro hin
      rcases List.mem_append.mp hin with hin | hin
      · exact newline_not_mem_printString _ hin
      · rcases List.mem_cons.mp hin with heq | hin
        · cases heq
        · exact ih field hfield hin
    intro hin
    rcases List.mem_cons.mp hin with heq | hin
    · cases heq
    · exact hlist hin

/-! ## Values over lines -/

/-- A new line at a depth of nesting. -/
def newLine (depth : Nat) : Text :=
  '\n' :: List.replicate (2 * depth) ' '

/-- Printed items each on a line of its own, and the bracket that closes them. -/
def prettyList (close : Char) (depth : Nat) : List Text → Text
  | [] => [close]
  | part :: parts => newLine (depth + 1) ++ (part ++
      (parts.flatMap (fun part => ',' :: (newLine (depth + 1) ++ part)) ++
        (newLine depth ++ [close])))

mutual

/-- How `to_vec_pretty` prints a value at a depth of nesting. -/
def prettyValue (depth : Nat) : JsonValue → Text
  | .array items => '[' :: prettyList ']' depth (prettyItems (depth + 1) items)
  | .object fields => '{' :: prettyList '}' depth (prettyFields (depth + 1) fields)
  | .null => printValue .null
  | .bool value => printValue (.bool value)
  | .number value => printNumber value
  | .string value => printString value

/-- The items of an array, each printed over lines. -/
def prettyItems (depth : Nat) : List JsonValue → List Text
  | [] => []
  | item :: items => prettyValue depth item :: prettyItems depth items

/-- The fields of an object, each printed over lines after its name. -/
def prettyFields (depth : Nat) : List (Text × JsonValue) → List Text
  | [] => []
  | (name, value) :: fields =>
    (printString name ++ ':' :: ' ' :: prettyValue depth value) :: prettyFields depth fields

end

/-- A character that may stand between the parts of a text. -/
def isJsonSpace (c : Char) : Bool :=
  c = ' ' || c = '\t' || c = '\n' || c = '\r'

/-- A document without the white space between its tokens; that of texts stays. -/
def withoutSpace : (inText : Bool) → Text → Text
  | _, [] => []
  | false, c :: rest =>
    if isJsonSpace c then withoutSpace false rest else c :: withoutSpace (c = '"') rest
  | true, '\\' :: c :: rest => '\\' :: c :: withoutSpace true rest
  | true, c :: rest => c :: withoutSpace (c ≠ '"') rest

/-- A text is the other one with white space between its tokens, whatever follows. -/
def Spaced (text compact : Text) : Prop :=
  ∀ rest, withoutSpace false (text ++ rest) = compact ++ withoutSpace false rest

/-- Texts one after the other lose their white space one after the other. -/
theorem Spaced.append {text text' compact compact' : Text} (h : Spaced text compact)
    (h' : Spaced text' compact') : Spaced (text ++ text') (compact ++ compact') := by
  intro rest
  rw [List.append_assoc, h, h', List.append_assoc]

/-- Nothing is spaced as nothing. -/
theorem spaced_nil : Spaced [] [] := fun _ => rfl

/-- A character that is no white space and no quotation mark stays. -/
theorem spaced_char {c : Char} (hspace : isJsonSpace c = false) (hquote : c ≠ '"') :
    Spaced [c] [c] := by
  intro rest
  show withoutSpace false (c :: rest) = c :: withoutSpace false rest
  rw [withoutSpace, hspace, decide_eq_false hquote]
  rfl

/-- Characters of tokens are kept. -/
theorem spaced_chars {text : Text} (h : ∀ c ∈ text, isJsonSpace c = false ∧ c ≠ '"') :
    Spaced text text := by
  induction text with
  | nil => exact spaced_nil
  | cons c text ih =>
    obtain ⟨⟨hspace, hquote⟩, hrest⟩ := List.forall_mem_cons.mp h
    exact (spaced_char hspace hquote).append (ih hrest)

/-- A new line is white space alone. -/
theorem spaced_newLine (depth : Nat) : Spaced (newLine depth) [] := by
  have hspaces : ∀ n, Spaced (List.replicate n ' ') [] := by
    intro n
    induction n with
    | zero => exact spaced_nil
    | succ n ih => exact fun rest => ih rest
  exact fun rest => hspaces (2 * depth) rest

/-- Within a text nothing is left out: a printed character neither ends the text nor is white space
between tokens. -/
theorem withoutSpace_escapeChar (c : Char) (rest : Text) :
    withoutSpace true (escapeChar c ++ rest) = escapeChar c ++ withoutSpace true rest := by
  have hdigit : ∀ n < 16, n.digitChar ≠ '\\' ∧ n.digitChar ≠ '"' := by decide
  have hplain : ∀ (c : Char) (rest : Text), c ≠ '\\' → c ≠ '"' →
      withoutSpace true (c :: rest) = c :: withoutSpace true rest := by
    intro c rest hback hquote
    rw [withoutSpace.eq_def]
    split <;> simp_all
  unfold escapeChar
  split_ifs with hquote hback hb ht hn hf hr hcontrol
  · rfl
  · rfl
  · rfl
  · rfl
  · rfl
  · rfl
  · rfl
  · obtain ⟨hhigh, hhigh'⟩ := hdigit (c.toNat / 16) (by omega)
    obtain ⟨hlow, hlow'⟩ := hdigit (c.toNat % 16) (by omega)
    simp only [List.cons_append, List.nil_append]
    rw [withoutSpace, hplain _ _ (by decide) (by decide), hplain _ _ (by decide) (by decide),
      hplain _ _ hhigh hhigh', hplain _ _ hlow hlow']
  · exact hplain c rest hback hquote

/-- What is in a string stays, white space included: the reader knows that it is between quotation
marks. -/
theorem spaced_printString (value : Text) : Spaced (printString value) (printString value) := by
  intro rest
  have hinner : ∀ value : Text, withoutSpace true (value.flatMap escapeChar ++ '"' :: rest) =
      value.flatMap escapeChar ++ '"' :: withoutSpace false rest := by
    intro value
    induction value with
    | nil => rfl
    | cons c value ih =>
      rw [List.flatMap_cons, List.append_assoc, withoutSpace_escapeChar, ih, List.append_assoc]
  rw [printString, List.cons_append, List.append_assoc]
  show '"' :: withoutSpace true (value.flatMap escapeChar ++ '"' :: rest) = _
  rw [hinner, List.cons_append, List.append_assoc]
  rfl

/-- The digits of a number stay. -/
theorem spaced_ofNat (n : Nat) : Spaced (Text.ofNat n) (Text.ofNat n) := by
  refine spaced_chars fun c hc => ?_
  have hdigit : c.isDigit := Nat.isDigit_of_mem_toDigits (by decide) (by decide) hc
  have hne : ∀ other : Char, other.isDigit = false → c ≠ other := by
    rintro other hother rfl
    exact absurd (hother.symm.trans hdigit) Bool.false_ne_true
  have hspace := hne ' ' rfl
  have htab := hne '\t' rfl
  have hline := hne '\n' rfl
  have hreturn := hne '\r' rfl
  refine ⟨?_, hne '"' rfl⟩
  simp [isJsonSpace, hspace, htab, hline, hreturn]

/-- A list over lines is the one on a line, spaced. -/
theorem spaced_prettyList {close : Char} {depth : Nat} {parts compacts : List Text}
    (hspace : isJsonSpace close = false) (hquote : close ≠ '"')
    (h : List.Forall₂ Spaced parts compacts) :
    Spaced (prettyList close depth parts) (printList close compacts) := by
  cases h with
  | nil => exact spaced_char hspace hquote
  | @cons part compact parts compacts hpart hparts =>
    have htail : Spaced (parts.flatMap fun part => ',' :: (newLine (depth + 1) ++ part))
        (compacts.flatMap fun part => ',' :: part) := by
      induction hparts with
      | nil => exact spaced_nil
      | @cons part compact parts compacts hpart _ ih =>
        have hcomma : Spaced [','] [','] := spaced_char (by decide) (by decide)
        exact (hcomma.append ((spaced_newLine _).append hpart)).append ih
    exact (spaced_newLine _).append
      (hpart.append (htail.append ((spaced_newLine _).append (spaced_char hspace hquote))))

/-- Items are printed over lines one by one. -/
theorem prettyItems_eq (depth : Nat) (items : List JsonValue) :
    prettyItems depth items = items.map (prettyValue depth) := by
  induction items with
  | nil => rw [prettyItems, List.map_nil]
  | cons item items ih => rw [prettyItems, ih, List.map_cons]

/-- Fields are printed over lines one by one. -/
theorem prettyFields_eq (depth : Nat) (fields : List (Text × JsonValue)) :
    prettyFields depth fields =
      fields.map fun field => printString field.1 ++ ':' :: ' ' :: prettyValue depth field.2 := by
  induction fields with
  | nil => rw [prettyFields, List.map_nil]
  | cons field fields ih => rw [prettyFields, ih, List.map_cons]

/-- **A value over lines is the value on a line, spaced.** -/
theorem spaced_prettyValue {value : JsonValue} (h : Printable value) (depth : Nat) :
    Spaced (prettyValue depth value) (printValue value) := by
  induction h generalizing depth with
  | null => exact fun _ => rfl
  | bool value => cases value <;> exact fun _ => rfl
  | posInt value => exact spaced_ofNat value.toNat
  | negInt value negative =>
    have hminus : Spaced ['-'] ['-'] := spaced_char (by decide) (by decide)
    exact hminus.append (spaced_ofNat value.toInt.natAbs)
  | string value => exact spaced_printString value
  | @array items _ ih =>
    have hopen : Spaced ['['] ['['] := spaced_char (by decide) (by decide)
    have hparts : List.Forall₂ Spaced (prettyItems (depth + 1) items) (printItems items) := by
      rw [prettyItems_eq, printItems_eq, List.forall₂_map_left_iff, List.forall₂_map_right_iff]
      exact List.forall₂_same.mpr fun item hitem => ih item hitem (depth + 1)
    exact hopen.append (spaced_prettyList (by decide) (by decide) hparts)
  | @object fields _ ih =>
    have hopen : Spaced ['{'] ['{'] := spaced_char (by decide) (by decide)
    have hcolon : Spaced [':', ' '] [':'] := fun _ => rfl
    have hparts : List.Forall₂ Spaced (prettyFields (depth + 1) fields) (printFields fields) := by
      rw [prettyFields_eq, printFields_eq, List.forall₂_map_left_iff, List.forall₂_map_right_iff]
      refine List.forall₂_same.mpr fun field hfield => ?_
      exact (spaced_printString field.1).append (hcolon.append (ih field hfield (depth + 1)))
    exact hopen.append (spaced_prettyList (by decide) (by decide) hparts)

/-- A document over lines is, without the space between its tokens, the document on a line. -/
theorem withoutSpace_prettyValue {value : JsonValue} (h : Printable value) :
    withoutSpace false (prettyValue 0 value) = printValue value := by
  have hspaced := spaced_prettyValue h 0 []
  rw [List.append_nil] at hspaced
  rw [hspaced]
  exact List.append_nil _

end JsonText

open JsonText in
/-- The library that prints values without white space and reads what is printed. -/
def compactJson : SerdeJson where
  toText := printValue
  fromText raw :=
    match readValue raw.length raw with
    | some (value, []) => .ok value
    | _ => .error "expected value"

/-- The library reads what it prints. -/
theorem compactJson_fromText {value : JsonValue} (h : JsonText.Printable value) :
    compactJson.fromText (JsonText.printValue value) = .ok value := by
  have hstops : JsonText.Stops [] := fun c hc => (nomatch hc)
  have hread := JsonText.readValue_printValue h (Nat.le_refl _) hstops
  rw [List.append_nil] at hread
  simp only [compactJson, hread]

/-- **What is printed without white space is read back.** -/
theorem compactJson_inverse : compactJson.Inverse where
  fromText_toText _ h := compactJson_fromText (JsonText.printable_of_canonical h)
  fromText_nil := by
    rw [compactJson]
    exact Except.not_succeeds_error _

end Tangle
