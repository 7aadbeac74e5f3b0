import Tangle.Lib.Except
import Tangle.Lib.Splits
import Tangle.Protocol.Text
import Tangle.Runtime.Relay

/-!
# The names of hosts

A tenant is served under a host, a name in lower case with an optional port, and under the address
of its relay. Texts are taken for a host exactly when they are one but for the case of their letters
(`CanonicalHost.new_eq_ok`), and an address is taken exactly when it is a scheme and a host written
in its lower-case form (`tenantRelayUrl_accepts_iff`).
-/

namespace Tangle

/-! ## Texts -/

namespace Text

/-- `char::to_ascii_lowercase`. -/
def lowerChar (c : Char) : Char :=
  if 'A' ≤ c ∧ c ≤ 'Z' then Char.ofNat (c.toNat + 32) else c

/-- `str::to_ascii_lowercase`. -/
def toAsciiLowercase (value : Text) : Text :=
  value.map lowerChar

/-- The number below `2 ^ 16` a text of digits spells (`str::parse::<u16>`, after the check of its
characters). -/
def parseU16Digits : Text → Option Nat
  | [] => none
  | value => digits? (2 ^ 16) value 0

end Text

/-! ## Hosts -/

/-- A character that a label of a host may hold. -/
def isHostChar (c : Char) : Bool :=
  ('a' ≤ c && c ≤ 'z') || ('0' ≤ c && c ≤ '9') || c == '-'

/-- `char::is_ascii_digit`. -/
def isAsciiDigit (c : Char) : Bool :=
  '0' ≤ c && c ≤ '9'

/-- `split_host_port`: the last colon is before the port. -/
def splitHostPort (host : Text) : Except BaseRelayError (Text × Option Text) :=
  if host.count ':' > 1 then
    .error (.invalid "host must not contain multiple port separators")
  else
    match rsplitOnce ':' host with
    | some (name, port) =>
      if name.isEmpty || port.isEmpty then
        .error (.invalid "host and port must both be present")
      else
        .ok (name, some port)
    | none => .ok (host, none)

/-- The checks of one label: its length, its ends and its characters. -/
def validateHostLabel (label : Text) : Except BaseRelayError Unit :=
  if label.isEmpty then
    .error (.invalid "host labels must not be empty")
  else if label.head? = some '-' || label.getLast? = some '-' then
    .error (.invalid "host labels must not start or end with hyphen")
  else if !label.all isHostChar then
    .error (.invalid
      "host labels must contain only lowercase ASCII letters, digits, and hyphen")
  else
    .ok ()

/-- `validate_host_name`: the checks of every label between dots. -/
def validateHostName (host : Text) : Except BaseRelayError Unit :=
  if host.isEmpty then
    .error (.invalid "host name must not be empty")
  else
    forM (host.splitOn '.') validateHostLabel

/-- `validate_port`: digits alone, and a number between 1 and 65535. -/
def validatePort (port : Text) : Except BaseRelayError Unit :=
  if !port.all isAsciiDigit then
    .error (.invalid "host port must be numeric")
  else
    match Text.parseU16Digits port with
    | none => .error (.invalid "host port must be between 1 and 65535")
    | some 0 => .error (.invalid "host port must be between 1 and 65535")
    | some (_ + 1) => .ok ()

/-- The text of the host that a text names. -/
def canonicalHostText (raw : Text) : Except BaseRelayError Text :=
  let trimmed := raw.trim
  if trimmed.isEmpty then
    .error (.invalid "host must not be empty")
  else if trimmed ≠ raw then
    .error (.invalid "host must not contain leading or trailing whitespace")
  else if "://".toList <:+: trimmed then
    .error (.invalid "host must not include a URL scheme")
  else if trimmed.any fun c => Text.isWhitespace c || ['/', '\\', '?', '#', '@'].contains c then
    .error (.invalid
      "host must not contain whitespace, path, query, fragment, or credentials")
  else if trimmed.contains '[' || trimmed.contains ']' then
    .error (.invalid "host must use a DNS name or IPv4 address with optional port")
  else do
    let lowercase := trimmed.toAsciiLowercase
    let parts ← splitHostPort lowercase
    validateHostName parts.1
    parts.2.elim (.ok ()) validatePort
    return lowercase

/-! ## What a host is made of -/

/-- What a label has to be. -/
structure IsHostLabel (label : Text) : Prop where
  nonempty : label ≠ []
  first : label.head? ≠ some '-'
  last : label.getLast? ≠ some '-'
  chars : ∀ c ∈ label, isHostChar c = true

/-- A port is spelled in digits, and is not zero. -/
def IsPort (port : Text) : Prop :=
  ∃ number, 0 < number ∧ Text.parseU16Digits port = some number

/-- The labels of a host and its port. -/
@[ext] structure HostName where
  labels : List Text
  port : Option Text
  nonempty : labels ≠ []
  isLabels : ∀ label ∈ labels, IsHostLabel label
  isPort : ∀ text ∈ port, IsPort text

namespace HostName

/-- The labels with dots between them. -/
def name (host : HostName) : Text :=
  ['.'].intercalate host.labels

/-- The name with its port, where it has one. -/
def print (host : HostName) : Text :=
  host.name ++ host.port.elim [] (':' :: ·)

end HostName

/-- A host as it is written in a canonical way. -/
@[ext] structure CanonicalHost where
  text : Text
  named : ∃ name : HostName, name.print = text

/-- The checks of a label pass for labels alone. -/
theorem validateHostLabel_eq_ok {label : Text} : validateHostLabel label = .ok () ↔
    IsHostLabel label := by
  unfold validateHostLabel
  split
  · next hempty =>
    refine iff_of_false (by simp) fun h => h.nonempty ?_
    exact List.isEmpty_iff.mp hempty
  · next hempty =>
    split
    · next hhyphen =>
      refine iff_of_false (by simp) fun h => ?_
      simp only [Bool.or_eq_true, decide_eq_true_eq] at hhyphen
      rcases hhyphen with hfirst | hlast
      · exact h.first hfirst
      · exact h.last hlast
    · next hhyphen =>
      simp only [Bool.or_eq_true, decide_eq_true_eq, not_or] at hhyphen
      split
      · next hchars =>
        refine iff_of_false (by simp) fun h => ?_
        rw [List.all_eq_true.mpr h.chars] at hchars
        cases hchars
      · next hchars =>
        refine iff_of_true rfl ⟨?_, hhyphen.1, hhyphen.2, ?_⟩
        · intro hnil
          rw [hnil] at hempty
          exact hempty rfl
        · simpa using hchars

/-! ### The characters of hosts -/

/-- The characters of a host and its port. -/
def isHostTextChar (c : Char) : Bool :=
  isHostChar c || c == '.' || c == ':'

/-- What is read as a number consists of digits. -/
theorem isAsciiDigit_of_digits? {port : Text} {bound acc number : Nat}
    (h : Text.digits? bound port acc = some number) : ∀ c ∈ port, isAsciiDigit c = true := by
  induction port generalizing acc with
  | nil => simp
  | cons first rest ih =>
    obtain ⟨digit, hdigit, h⟩ := Option.bind_eq_some_iff.mp h
    split at h
    · intro c hc
      rcases List.mem_cons.mp hc with rfl | hc
      · unfold Text.digit? at hdigit
        split at hdigit
        · next hrange => simpa [isAsciiDigit] using hrange
        · cases hdigit
      · exact ih h c hc
    · cases h

/-- A port consists of digits. -/
theorem IsPort.digits {port : Text} (h : IsPort port) : ∀ c ∈ port, isAsciiDigit c = true := by
  obtain ⟨number, _, hnumber⟩ := h
  cases port with
  | nil => cases hnumber
  | cons first rest => exact isAsciiDigit_of_digits? hnumber

/-- A port is no empty text. -/
theorem IsPort.nonempty {port : Text} (h : IsPort port) : port ≠ [] := by
  obtain ⟨number, _, hnumber⟩ := h
  rintro rfl
  cases hnumber

/-- The checks of a port pass for ports alone. -/
theorem validatePort_eq_ok {port : Text} : validatePort port = .ok () ↔ IsPort port := by
  unfold validatePort
  split
  · next hdigits =>
    refine iff_of_false (by simp) fun h => ?_
    rw [List.all_eq_true.mpr h.digits] at hdigits
    cases hdigits
  · split
    · next hnone =>
      refine iff_of_false (by simp) fun ⟨number, _, hnumber⟩ => ?_
      rw [hnone] at hnumber
      cases hnumber
    · next hzero =>
      refine iff_of_false (by simp) fun ⟨number, hpositive, hnumber⟩ => ?_
      rw [hzero] at hnumber
      cases hnumber
      exact Nat.lt_irrefl 0 hpositive
    · next number hsucc => exact iff_of_true rfl ⟨number + 1, Nat.succ_pos _, hsucc⟩

/-- A character of a label is neither of the two that separate. -/
theorem ne_of_isHostChar {c : Char} (h : isHostChar c = true) : c ≠ '.' ∧ c ≠ ':' := by
  constructor
  · rintro rfl
    exact absurd h (by decide)
  · rintro rfl
    exact absurd h (by decide)

/-- A digit may stand in a label. -/
theorem isHostChar_of_isAsciiDigit {c : Char} (h : isAsciiDigit c = true) :
    isHostChar c = true := by
  unfold isAsciiDigit at h
  simp [isHostChar, h]

namespace HostName

variable {host other : HostName}

/-- No character of a label separates. -/
theorem ne_of_mem_label {label : Text} (hlabel : label ∈ host.labels) {c : Char} (hc : c ∈ label) :
    c ≠ '.' ∧ c ≠ ':' :=
  ne_of_isHostChar ((host.isLabels label hlabel).chars c hc)

/-- A name consists of the characters of labels and of dots. -/
theorem chars_name {c : Char} (hc : c ∈ host.name) : isHostChar c = true ∨ c = '.' := by
  rcases mem_or_mem_of_mem_intercalate hc with hdot | ⟨label, hlabel, hc⟩
  · exact .inr (List.mem_singleton.mp hdot)
  · exact .inl ((host.isLabels label hlabel).chars c hc)

/-- A name has no colon, so that the first one of the printed host is before the port. -/
theorem colon_not_mem_name : ':' ∉ host.name := by
  intro hc
  rcases chars_name hc with hchar | hdot
  · exact (ne_of_isHostChar hchar).2 rfl
  · exact absurd hdot (by decide)

/-- A port has no colon. -/
theorem colon_not_mem_port {port : Text} (hport : port ∈ host.port) : ':' ∉ port := by
  intro hc
  exact (ne_of_isHostChar (isHostChar_of_isAsciiDigit ((host.isPort port hport).digits _ hc))).2 rfl

/-- What is printed consists of characters that a host may hold. -/
theorem chars_print {c : Char} (hc : c ∈ host.print) : isHostTextChar c = true := by
  unfold print at hc
  rcases List.mem_append.mp hc with hname | hport
  · rcases chars_name hname with hchar | rfl
    · simp [isHostTextChar, hchar]
    · decide
  · cases hsome : host.port with
    | none =>
      rw [hsome] at hport
      cases hport
    | some port =>
      rw [hsome] at hport
      rcases List.mem_cons.mp hport with rfl | hdigit
      · decide
      · have hchar := isHostChar_of_isAsciiDigit ((host.isPort port hsome).digits c hdigit)
        simp [isHostTextChar, hchar]

/-- The parts between the dots of a name are its labels. -/
theorem splitOn_name : host.name.splitOn '.' = host.labels := by
  refine List.splitOn_intercalate '.' ?_ host.nonempty
  intro label hlabel hdot
  exact (ne_of_mem_label hlabel hdot).1 rfl

/-- A name is no empty text. -/
theorem name_ne_nil : host.name ≠ [] := by
  intro hnil
  have hlabels : [[]] = host.labels := by
    rw [← splitOn_name, hnil]
    rfl
  have hlabel := host.isLabels [] (hlabels ▸ List.mem_cons_self ..)
  exact hlabel.nonempty rfl

/-- Nor is a printed host. -/
theorem print_ne_nil : host.print ≠ [] :=
  List.append_ne_nil_of_left_ne_nil name_ne_nil _

/-- **A printed host splits into its name and its port.** Neither has a colon. -/
theorem splitHostPort_print : splitHostPort host.print = .ok (host.name, host.port) := by
  have hname : host.name.count ':' = 0 := List.count_eq_zero.mpr colon_not_mem_name
  unfold splitHostPort print
  cases hport : host.port with
  | none =>
    simp only [Option.elim_none, List.append_nil, hname]
    rw [rsplitOnce_eq_none.mpr colon_not_mem_name]
    rfl
  | some port =>
    have hcolon : ':' ∉ port := colon_not_mem_port hport
    have hcount : (host.name ++ ':' :: port).count ':' = 1 := by
      rw [List.count_append, hname, List.count_cons_self, List.count_eq_zero.mpr hcolon]
    simp only [Option.elim_some, hcount]
    rw [rsplitOnce_eq_some.mpr ⟨rfl, hcolon⟩]
    have hempty : host.name.isEmpty = false := by simpa using name_ne_nil
    have hempty' : port.isEmpty = false := by simpa using (host.isPort port hport).nonempty
    simp [hempty, hempty']

/-- A text is one host's. -/
theorem print_injective (h : host.print = other.print) : host = other := by
  have hparts : splitHostPort host.print = splitHostPort other.print := by rw [h]
  rw [splitHostPort_print, splitHostPort_print] at hparts
  obtain ⟨hname, hport⟩ := Prod.mk.inj (Except.ok.inj hparts)
  ext1
  · rw [← host.splitOn_name, ← other.splitOn_name, hname]
  · exact hport

end HostName

/-! ## Hosts that are accepted -/

/-- Where the characters of a host are among all characters. -/
theorem range_of_isHostTextChar {c : Char} (h : isHostTextChar c = true) :
    (45 ≤ c.toNat ∧ c.toNat ≤ 46) ∨ (48 ≤ c.toNat ∧ c.toNat ≤ 58) ∨
      (97 ≤ c.toNat ∧ c.toNat ≤ 122) := by
  simp only [isHostTextChar, isHostChar, Bool.or_eq_true, Bool.and_eq_true, decide_eq_true_eq,
    beq_iff_eq] at h
  rcases h with (((⟨hfirst, hlast⟩ | ⟨hfirst, hlast⟩) | rfl) | rfl) | rfl
  · have hfirst : 'a'.toNat ≤ c.toNat := hfirst
    have hlast : c.toNat ≤ 'z'.toNat := hlast
    exact .inr (.inr ⟨hfirst, hlast⟩)
  · have hfirst : '0'.toNat ≤ c.toNat := hfirst
    have hlast : c.toNat ≤ '9'.toNat := hlast
    have hnine : '9'.toNat = 57 := rfl
    exact .inr (.inl ⟨hfirst, by omega⟩)
  · decide
  · decide
  · decide

/-- The characters of hosts, of either case. -/
def InHostRange (c : Char) : Prop :=
  (45 ≤ c.toNat ∧ c.toNat ≤ 46) ∨ (48 ≤ c.toNat ∧ c.toNat ≤ 58) ∨
    (65 ≤ c.toNat ∧ c.toNat ≤ 90) ∨ (97 ≤ c.toNat ∧ c.toNat ≤ 122)

instance instDecidableInHostRange (c : Char) : Decidable (InHostRange c) :=
  inferInstanceAs (Decidable (_ ∨ _))

/-- A character whose lower case may stand in a host lies in the range of these. -/
theorem inHostRange_of_lowerChar {c : Char} (h : isHostTextChar (Text.lowerChar c) = true) :
    InHostRange c := by
  unfold Text.lowerChar at h
  split at h
  · next hupper =>
    have hfirst : 'A'.toNat ≤ c.toNat := hupper.1
    have hlast : c.toNat ≤ 'Z'.toNat := hupper.2
    exact .inr (.inr (.inl ⟨hfirst, hlast⟩))
  · have hrange := range_of_isHostTextChar h
    unfold InHostRange
    omega

/-- A text without white space has no character of white space. -/
theorem not_whitespace_of_any {text : Text} {c : Char} (h : text.any Text.isWhitespace = false)
    (hc : c ∈ text) : Text.isWhitespace c = false :=
  Bool.eq_false_iff.mpr (List.any_eq_false.mp h c hc)

/-- No white space is a host's character. -/
theorem InHostRange.not_whitespace {c : Char} (h : InHostRange c) :
    Text.isWhitespace c = false := by
  rw [Bool.eq_false_iff]
  intro hspace
  simp only [Text.isWhitespace, Bool.or_eq_true, Bool.and_eq_true, decide_eq_true_eq, beq_iff_eq]
    at hspace
  unfold InHostRange at h
  omega

/-- The characters of a host are lower case already. -/
theorem lowerChar_of_isHostTextChar {c : Char} (h : isHostTextChar c = true) :
    Text.lowerChar c = c := by
  refine if_neg fun hupper => ?_
  have hfirst : 'A'.toNat ≤ c.toNat := hupper.1
  have hlast : c.toNat ≤ 'Z'.toNat := hupper.2
  have hA : 'A'.toNat = 65 := rfl
  have hZ : 'Z'.toNat = 90 := rfl
  have hrange := range_of_isHostTextChar h
  omega

/-- Nothing is dropped where nothing is to be dropped. -/
theorem dropWhile_of_none {p : Char → Bool} {value : Text} (h : ∀ c ∈ value, p c = false) :
    value.dropWhile p = value := by
  cases value with
  | nil => rfl
  | cons first rest => exact List.dropWhile_cons_of_neg (by simp [h first (List.mem_cons_self ..)])

/-- A text without white space is trimmed to itself. -/
theorem trim_of_no_whitespace {value : Text} (h : ∀ c ∈ value, Text.isWhitespace c = false) :
    value.trim = value := by
  unfold Text.trim
  rw [dropWhile_of_none h, dropWhile_of_none, List.reverse_reverse]
  intro c hc
  exact h c (List.mem_reverse.mp hc)

/-- A printed host is in lower case. -/
theorem print_toAsciiLowercase (host : HostName) : host.print.toAsciiLowercase = host.print := by
  refine (List.map_congr_left fun c hc => ?_).trans (List.map_id _)
  exact lowerChar_of_isHostTextChar (HostName.chars_print hc)

/-- What a host splits into makes it up. -/
theorem eq_of_splitHostPort {host name : Text} {port : Option Text}
    (h : splitHostPort host = .ok (name, port)) : host = name ++ port.elim [] (':' :: ·) := by
  unfold splitHostPort at h
  split at h
  · cases h
  · split at h
    · next hsplit =>
      split at h
      · cases h
      · cases h
        exact (rsplitOnce_eq_some.mp hsplit).1
    · cases h
      exact (List.append_nil _).symm

/-- The checks of a text in lower case accept those of hosts. -/
theorem hostChecks_eq_ok {lowercase out : Text} :
    (do
      let parts ← splitHostPort lowercase
      validateHostName parts.1
      parts.2.elim (.ok ()) validatePort
      return lowercase : Except BaseRelayError Text) = .ok out ↔
      ∃ host : HostName, host.print = lowercase ∧ out = host.print := by
  constructor
  · intro h
    obtain ⟨⟨name, port⟩, hsplit, h⟩ := Except.bind_eq_ok.mp h
    obtain ⟨_, hname, h⟩ := Except.bind_eq_ok.mp h
    obtain ⟨_, hport, h⟩ := Except.bind_eq_ok.mp h
    cases h
    unfold validateHostName at hname
    split at hname
    · cases hname
    · next hne =>
      have hlabels := Except.forM_eq_ok.mp hname
      have hport' : ∀ text ∈ port, IsPort text := by
        rintro text rfl
        exact validatePort_eq_ok.mp hport
      let host : HostName := ⟨name.splitOn '.', port, List.splitOn_ne_nil _ _,
        fun label hlabel => validateHostLabel_eq_ok.mp (hlabels label hlabel), hport'⟩
      have hhost : host.print = lowercase := by
        rw [eq_of_splitHostPort hsplit]
        show ['.'].intercalate (name.splitOn '.') ++ _ = _
        rw [List.intercalate_splitOn]
      exact ⟨host, hhost, hhost.symm⟩
  · rintro ⟨host, rfl, rfl⟩
    rw [HostName.splitHostPort_print, Except.ok_bind]
    have hname : validateHostName host.name = .ok () := by
      have hempty : host.name.isEmpty = false := by simpa using host.name_ne_nil
      unfold validateHostName
      rw [hempty, host.splitOn_name]
      refine Except.forM_eq_ok.mpr fun label hlabel => ?_
      exact validateHostLabel_eq_ok.mpr (host.isLabels label hlabel)
    rw [hname, Except.ok_bind]
    cases hport : host.port with
    | none => rfl
    | some port =>
      show (validatePort port >>= fun _ => _) = _
      rw [validatePort_eq_ok.mpr (host.isPort port hport)]
      rfl

/-- What a text is that becomes a host when it is put in lower case. -/
theorem inHostRange_of_print {host : HostName} {raw : Text}
    (h : host.print = raw.toAsciiLowercase) : ∀ c ∈ raw, InHostRange c := by
  intro c hc
  refine inHostRange_of_lowerChar (host.chars_print ?_)
  rw [h]
  exact List.mem_map_of_mem hc

/-- The hosts that are accepted. -/
theorem canonicalHostText_eq_ok {raw out : Text} : canonicalHostText raw = .ok out ↔
    ∃ host : HostName, host.print = raw.toAsciiLowercase ∧ out = host.print := by
  unfold canonicalHostText
  constructor
  · intro h
    dsimp only at h
    split at h
    · cases h
    · split at h
      · cases h
      · next htrim =>
        have htrim := not_not.mp htrim
        split at h
        · cases h
        · split at h
          · cases h
          · split at h
            · cases h
            · rw [htrim] at h
              exact hostChecks_eq_ok.mp h
  · rintro ⟨host, hprint, hout⟩
    have hrange := inHostRange_of_print hprint
    have hspace : ∀ c ∈ raw, Text.isWhitespace c = false := fun c hc => (hrange c hc).not_whitespace
    have habsent : ∀ c : Char, ¬ InHostRange c → c ∉ raw := fun c hnot hc => hnot (hrange c hc)
    have htrim : raw.trim = raw := trim_of_no_whitespace hspace
    have hne : raw ≠ [] := by
      rintro rfl
      exact host.print_ne_nil hprint
    have hscheme : ¬ "://".toList <:+: raw := by
      intro hwithin
      exact habsent '/' (by decide) (hwithin.subset (by decide))
    have hspecial : (raw.any fun c => Text.isWhitespace c ||
        ['/', '\\', '?', '#', '@'].contains c) = false := by
      refine List.any_eq_false.mpr fun c hc => ?_
      have hnot : ∀ special ∈ ['/', '\\', '?', '#', '@'], special ∉ raw := by
        intro special hspecial
        have hnone : (['/', '\\', '?', '#', '@'].any fun c => decide (InHostRange c)) = false := rfl
        exact habsent special (of_decide_eq_false
          (Bool.eq_false_iff.mpr (List.any_eq_false.mp hnone special hspecial)))
      simp only [hspace c hc, Bool.false_or, List.contains_iff_mem]
      exact fun hmem => hnot c hmem hc
    have hbrackets : (raw.contains '[' || raw.contains ']') = false := by
      simp [habsent '[' (by decide), habsent ']' (by decide)]
    have hempty : raw.isEmpty = false := by simpa using hne
    dsimp only
    rw [htrim, hempty, hspecial, hbrackets, if_neg (by simp), if_neg (by simp), if_neg hscheme,
      if_neg (by simp), if_neg (by simp)]
    exact hostChecks_eq_ok.mpr ⟨host, hprint, hout⟩

namespace CanonicalHost

/-- `CanonicalHost::new`. -/
def new (raw : Text) : Except BaseRelayError CanonicalHost :=
  match h : canonicalHostText raw with
  | .error error => .error error
  | .ok text => .ok ⟨text, (canonicalHostText_eq_ok.mp h).imp fun _ hhost => hhost.2.symm⟩

/-- **A host is taken exactly when its lower case is the print of a name**, and it is kept as that
print. -/
theorem new_eq_ok {raw : Text} {host : CanonicalHost} : new raw = .ok host ↔
    ∃ name : HostName, name.print = raw.toAsciiLowercase ∧ host.text = name.print := by
  rw [← canonicalHostText_eq_ok]
  unfold new
  split
  · next error herror => simp [herror]
  · next text htext =>
    constructor
    · intro h
      cases h
      exact htext
    · intro h
      obtain ⟨text', named⟩ := host
      obtain rfl : text = text' := Except.ok.inj (htext.symm.trans h)
      rfl

/-- A host is accepted as it is written, and in any other case of its letters. -/
theorem new_of_lowercase (host : CanonicalHost) {raw : Text}
    (h : raw.toAsciiLowercase = host.text) :
    new raw = .ok host := by
  obtain ⟨name, hname⟩ := host.named
  exact new_eq_ok.mpr ⟨name, hname.trans h.symm, hname.symm⟩

/-- The host that is kept is the text in lower case. -/
theorem text_of_new {raw : Text} {host : CanonicalHost} (h : new raw = .ok host) :
    raw.toAsciiLowercase = host.text := by
  obtain ⟨name, hname, htext⟩ := new_eq_ok.mp h
  rw [htext, hname]

end CanonicalHost

/-! ## Addresses of relays -/

/-- `TenantRelayUrl::new`, up to where the text is kept: scheme, authority and path are checked one
after another. -/
def relayUrlText (raw : Text) : Except BaseRelayError Text :=
  let trimmed := raw.trim
  if trimmed.isEmpty then
    .error (.invalid "relay_url must not be empty")
  else if trimmed ≠ raw then
    .error (.invalid "relay_url must not contain leading or trailing whitespace")
  else if trimmed.any Text.isWhitespace then
    .error (.invalid "relay_url must not contain whitespace")
  else
    match splitOnce "://".toList trimmed with
    | none => .error (.invalid "relay_url must include ws:// or wss://")
    | some (scheme, rest) =>
      if ["ws".toList, "wss".toList].contains scheme then
        let authority := rest.takeWhile (· != '/')
        if authority.isEmpty then
          .error (.invalid "relay_url host must not be empty")
        else do
          let host ← CanonicalHost.new authority
          return scheme ++ "://".toList ++ host.text ++ rest.drop authority.length
      else
        .error (.invalid "relay_url must start with ws:// or wss://")

/-- What the address of a relay is made of. -/
@[ext] structure RelayAddress where
  scheme : Text
  host : HostName
  path : Text
  isScheme : scheme ∈ ["ws".toList, "wss".toList]
  isPath : path = [] ∨ path.head? = some '/'
  noSpace : ∀ c ∈ path, Text.isWhitespace c = false

namespace RelayAddress

variable {address other : RelayAddress}

/-- The address with its authority spelled in some case. -/
def spelled (address : RelayAddress) (authority : Text) : Text :=
  address.scheme ++ "://".toList ++ authority ++ address.path

/-- The address as it is kept. -/
def print (address : RelayAddress) : Text :=
  address.spelled address.host.print

/-- The scheme of an address ends at the first separator. -/
theorem splitOnce_spelled (address : RelayAddress) (authority : Text) :
    splitOnce "://".toList (address.spelled authority) =
      some (address.scheme, authority ++ address.path) := by
  obtain ⟨scheme, host, path, hscheme, _, _⟩ := address
  unfold spelled
  simp only [List.mem_cons, List.not_mem_nil, or_false] at hscheme
  rcases hscheme with rfl | rfl
  · rfl
  · rfl

/-- The authority of an address ends at its path. -/
theorem takeWhile_authority (address : RelayAddress) {authority : Text} (h : '/' ∉ authority) :
    (authority ++ address.path).takeWhile (· != '/') = authority := by
  have hall : ∀ c ∈ authority, (c != '/') = true := by
    intro c hc
    have hne : c ≠ '/' := by
      rintro rfl
      exact h hc
    simpa using hne
  rw [List.takeWhile_append_of_pos hall]
  have hpath : address.path.takeWhile (· != '/') = [] := by
    rcases address.isPath with hnil | hhead
    · rw [hnil]
      rfl
    · obtain ⟨rest, hrest⟩ := List.head?_eq_some_iff.mp hhead
      rw [hrest]
      rfl
  rw [hpath, List.append_nil]

/-- No slash is in a printed host. -/
theorem slash_not_mem (address : RelayAddress) : '/' ∉ address.host.print := by
  intro hc
  exact absurd (HostName.chars_print hc) (by decide)

/-- A text is the address of one relay. -/
theorem print_injective (h : address.print = other.print) : address = other := by
  have hparts := address.splitOnce_spelled address.host.print
  have hparts' := other.splitOnce_spelled other.host.print
  unfold print at h
  rw [h, hparts'] at hparts
  obtain ⟨hscheme, hrest⟩ := Prod.mk.inj (Option.some.inj hparts)
  have hhost : other.host.print = address.host.print := by
    rw [← other.takeWhile_authority other.slash_not_mem, hrest,
      address.takeWhile_authority address.slash_not_mem]
  rw [hhost] at hrest
  ext1
  · exact hscheme.symm
  · exact (HostName.print_injective hhost).symm
  · exact (List.append_cancel_left hrest).symm

end RelayAddress

/-- The address of a relay as it is written in a canonical way. -/
@[ext] structure TenantRelayUrl where
  text : Text
  named : ∃ address : RelayAddress, address.print = text

/-- What follows the authority is nothing, or starts with a slash. -/
theorem parts_of_takeWhile (rest : Text) :
    rest.drop (rest.takeWhile (· != '/')).length = rest.dropWhile (· != '/') ∧
      (rest.dropWhile (· != '/') = [] ∨ (rest.dropWhile (· != '/')).head? = some '/') := by
  induction rest with
  | nil => exact ⟨rfl, .inl rfl⟩
  | cons c rest ih =>
    by_cases heq : c = '/'
    · subst heq
      exact ⟨rfl, .inr rfl⟩
    · have hpos : (c != '/') = true := by simpa using heq
      have htake : (c :: rest).takeWhile (· != '/') = c :: rest.takeWhile (· != '/') :=
        List.takeWhile_cons_of_pos hpos
      have hdrop : (c :: rest).dropWhile (· != '/') = rest.dropWhile (· != '/') :=
        List.dropWhile_cons_of_pos hpos
      rw [htake, hdrop]
      exact ih

/-- **What is taken as an address.** The text is the address but for the case of its authority, and
the authority is put in lower case; the path stays as it is. -/
theorem relayUrlText_eq_ok {raw out : Text} : relayUrlText raw = .ok out ↔
    ∃ (address : RelayAddress) (authority : Text), raw = address.spelled authority ∧
      authority.toAsciiLowercase = address.host.print ∧ out = address.print := by
  unfold relayUrlText
  constructor
  · intro h
    dsimp only at h
    split at h
    · cases h
    · split at h
      · cases h
      · next htrim =>
        rw [not_not.mp htrim] at h
        split at h
        · cases h
        · next hspace =>
          split at h
          · cases h
          · next scheme rest hsplit =>
            split at h
            · next hscheme =>
              split at h
              · cases h
              · obtain ⟨host, hnew, h⟩ := Except.bind_eq_ok.mp h
                cases h
                obtain ⟨name, hname, htext⟩ := CanonicalHost.new_eq_ok.mp hnew
                have hraw := eq_of_splitOnce hsplit
                obtain ⟨hrest, hpath⟩ := parts_of_takeWhile rest
                have hnospace : ∀ c ∈ rest.dropWhile (· != '/'), Text.isWhitespace c = false := by
                  intro c hc
                  refine Bool.eq_false_iff.mpr
                    (List.any_eq_false.mp (Bool.eq_false_iff.mpr hspace) c ?_)
                  rw [hraw]
                  exact List.mem_append_right _ (List.dropWhile_subset _ hc)
                refine ⟨⟨scheme, name, rest.dropWhile (· != '/'), List.contains_iff_mem.mp hscheme,
                  hpath, hnospace⟩, rest.takeWhile (· != '/'), ?_, hname.symm, ?_⟩
                · show raw = scheme ++ "://".toList ++ _ ++ _
                  rw [List.append_assoc, List.takeWhile_append_dropWhile, hraw]
                · show _ = scheme ++ "://".toList ++ name.print ++ _
                  rw [htext, hrest]
            · cases h
  · rintro ⟨address, authority, rfl, hauthority, rfl⟩
    have hrange := inHostRange_of_print hauthority.symm
    have hslash : '/' ∉ authority := fun hc => absurd (hrange _ hc) (by decide)
    have hspace : ∀ c ∈ address.spelled authority, Text.isWhitespace c = false := by
      intro c hc
      unfold RelayAddress.spelled at hc
      simp only [List.mem_append] at hc
      rcases hc with ((hscheme | hseparator) | hc) | hc
      · have hscheme' := address.isScheme
        simp only [List.mem_cons, List.not_mem_nil, or_false] at hscheme'
        rcases hscheme' with heq | heq
        · rw [heq] at hscheme
          exact not_whitespace_of_any rfl hscheme
        · rw [heq] at hscheme
          exact not_whitespace_of_any rfl hscheme
      · exact not_whitespace_of_any rfl hseparator
      · exact (hrange c hc).not_whitespace
      · exact address.noSpace c hc
    have hne : authority ≠ [] := by
      rintro rfl
      exact address.host.print_ne_nil hauthority.symm
    have hempty : (address.spelled authority).isEmpty = false := by
      have hspelled : address.spelled authority ≠ [] := by
        unfold RelayAddress.spelled
        simp
      simpa using hspelled
    have hany : (address.spelled authority).any Text.isWhitespace = false :=
      List.any_eq_false.mpr fun c hc => Bool.eq_false_iff.mp (hspace c hc)
    have hnew : CanonicalHost.new authority = .ok ⟨address.host.print, address.host, rfl⟩ :=
      CanonicalHost.new_eq_ok.mpr ⟨address.host, hauthority.symm, rfl⟩
    have hauthority' : authority.isEmpty = false := by simpa using hne
    dsimp only
    rw [trim_of_no_whitespace hspace, hempty, hany, address.splitOnce_spelled, if_neg (by simp),
      if_neg (by simp), if_neg (by simp)]
    dsimp only
    rw [address.takeWhile_authority hslash, hauthority', hnew,
      if_pos (List.contains_iff_mem.mpr address.isScheme), if_neg (by simp), List.drop_left]
    rfl

namespace TenantRelayUrl

/-- `TenantRelayUrl::new`. -/
def new (raw : Text) : Except BaseRelayError TenantRelayUrl :=
  match h : relayUrlText raw with
  | .error error => .error error
  | .ok text => .ok ⟨text, (relayUrlText_eq_ok.mp h).imp fun _ haddress =>
      haddress.choose_spec.2.2.symm⟩

/-- An address is what `relayUrlText` makes of a text. -/
theorem new_eq_ok {raw : Text} {url : TenantRelayUrl} :
    new raw = .ok url ↔ relayUrlText raw = .ok url.text := by
  unfold new
  split
  · next error herror => simp [herror]
  · next text htext =>
    constructor
    · intro h
      cases h
      exact htext
    · intro h
      obtain ⟨text', named⟩ := url
      obtain rfl : text = text' := Except.ok.inj (htext.symm.trans h)
      rfl

end TenantRelayUrl

/-- **Addresses are accepted by their form.** A text is accepted as the address of a relay exactly
when it is one, but for the case of the letters of its host: a scheme, the labels of the host with
an optional port, and a path. It has these parts in one way only. The text that is kept is the
address, which is accepted as it is. -/
theorem tenantRelayUrl_accepts_iff {raw : Text} {url : TenantRelayUrl} :
    (TenantRelayUrl.new raw = .ok url ↔
      ∃! address : RelayAddress, ∃ authority, raw = address.spelled authority ∧
        authority.toAsciiLowercase = address.host.print ∧ url.text = address.print) ∧
    TenantRelayUrl.new url.text = .ok url := by
  constructor
  · rw [TenantRelayUrl.new_eq_ok, relayUrlText_eq_ok]
    constructor
    · rintro ⟨address, authority, hraw, hauthority, htext⟩
      refine ⟨address, ⟨authority, hraw, hauthority, htext⟩, ?_⟩
      rintro other ⟨_, _, _, htext'⟩
      exact RelayAddress.print_injective (htext'.symm.trans htext)
    · rintro ⟨address, ⟨authority, hparts⟩, _⟩
      exact ⟨address, authority, hparts⟩
  · obtain ⟨address, haddress⟩ := url.named
    rw [TenantRelayUrl.new_eq_ok, relayUrlText_eq_ok]
    exact ⟨address, address.host.print, haddress.symm, print_toAsciiLowercase _, haddress.symm⟩

end Tangle
