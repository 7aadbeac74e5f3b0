import Tangle.Groups.Config
import Tangle.Lib.Splits

/-!
# Redacted messages

Before a message is logged or printed the relay's secret is taken out of it. What is put in its
place has angle brackets around it, which no secret has, so that the places of a secret cannot join
into another: the redacted message holds no secret, and is the message otherwise
(`redacted_holds_none`).
-/

namespace Tangle

/-- `TANGLE_LOG_REDACTED`. -/
def tangleLogRedacted : Text :=
  "<redacted>".toList

/-- Drops what is the same as what stands before it (`Vec::dedup`). -/
def dedup : List Text → List Text
  | first :: second :: rest =>
    if first = second then dedup (second :: rest) else first :: dedup (second :: rest)
  | values => values

/-- The secrets that are taken out of messages. -/
structure TangleLogRedactor where
  secrets : List Text
  nonempty : ∀ secret ∈ secrets, secret ≠ []

/-- Dropping neighbours that are equal drops no value. -/
theorem mem_dedup {values : List Text} {value : Text} : value ∈ dedup values ↔ value ∈ values := by
  induction values with
  | nil => exact Iff.rfl
  | cons first rest ih =>
    cases rest with
    | nil => exact Iff.rfl
    | cons second rest =>
      unfold dedup
      split
      · next heq =>
        rw [ih, heq]
        simp
      · rw [List.mem_cons, ih, ← List.mem_cons]

namespace TangleLogRedactor

/-- The secrets of a list, in order and once each. -/
def sortedSecrets (secrets : List Text) : List Text :=
  dedup ((secrets.filter fun secret => !secret.isEmpty).mergeSort fun a b => decide (a ≤ b))

/-- The secrets kept are those of the list that are not empty. -/
theorem mem_sortedSecrets {secrets : List Text} {secret : Text} :
    secret ∈ sortedSecrets secrets ↔ secret ∈ secrets ∧ secret ≠ [] := by
  unfold sortedSecrets
  rw [mem_dedup, List.mem_mergeSort, List.mem_filter]
  simp

/-- `TangleLogRedactor::new`: empty secrets are left out, the rest sorted and kept once each. -/
def new (secrets : List Text) : TangleLogRedactor :=
  ⟨sortedSecrets secrets, fun _ hsecret => (mem_sortedSecrets.mp hsecret).2⟩

/-- `from_runtime_config`: the relay's own secret, if it has one. -/
def fromRuntimeConfig (groups : GroupRuntimeConfig) : TangleLogRedactor :=
  new (groups.relaySecret.toList.map RelaySecret.text)

/-- `redact`: the secrets are replaced one after another. -/
def redact (redactor : TangleLogRedactor) (value : Text) : Text :=
  redactor.secrets.foldl (fun redacted secret => replaceAll secret tangleLogRedacted redacted) value

/-- `contains_secret`. -/
def containsSecret (redactor : TangleLogRedactor) (value : Text) : Bool :=
  redactor.secrets.any fun secret => decide (secret <:+: value)

end TangleLogRedactor

/-- `sanitize_error_message`. -/
def sanitizeErrorMessage (groups : GroupRuntimeConfig) (message : Text) : Text :=
  (TangleLogRedactor.fromRuntimeConfig groups).redact message

/-! ## What is left of a message -/

/-- A secret that does not reach into what stands for secrets. -/
structure Redactable (secret : Text) : Prop where
  nonempty : secret ≠ []
  first : '<' ∉ secret
  last : '>' ∉ secret
  middle : ¬ secret <:+: "redacted".toList

section
variable {secret other value : Text} {secrets : List Text}

/-- A secret that stands in a redacted message stands in one of the parts that were left. -/
theorem infix_redacted (hsecret : Redactable secret) {parts : List Text}
    (h : secret <:+: tangleLogRedacted.intercalate parts) : ∃ part ∈ parts, secret <:+: part := by
  have hbrackets : tangleLogRedacted = '<' :: ("redacted".toList ++ ['>']) := rfl
  rw [hbrackets] at h
  exact (infix_intercalate hsecret.first hsecret.last h).resolve_left hsecret.middle

/-- What a message does not hold it does not hold after a secret was taken out. -/
theorem not_infix_replaceAll (hother : Redactable other) (hne : secret ≠ [])
    (hvalue : ¬ other <:+: value) : ¬ other <:+: replaceAll secret tangleLogRedacted value := by
  obtain ⟨parts, hparts, hreplaced, _⟩ := @exists_parts_replaceAll _ _ _ tangleLogRedacted hne value
  intro hwithin
  rw [hreplaced] at hwithin
  obtain ⟨part, hpart, hwithin⟩ := infix_redacted hother hwithin
  refine hvalue (hwithin.trans ?_)
  rw [hparts]
  exact infix_intercalate_of_mem hpart

/-- The secret that was taken out is gone. -/
theorem not_infix_replaceAll_self (hsecret : Redactable secret) :
    ¬ secret <:+: replaceAll secret tangleLogRedacted value := by
  obtain ⟨parts, _, hreplaced, hclean⟩ :=
    @exists_parts_replaceAll _ _ _ tangleLogRedacted hsecret.nonempty value
  intro hwithin
  rw [hreplaced] at hwithin
  obtain ⟨part, hpart, hwithin⟩ := infix_redacted hsecret hwithin
  exact hclean part hpart hwithin

/-- Once a list of secrets was taken out, none of them is left, nor any that was not there. -/
theorem not_infix_foldl (hsecrets : ∀ other ∈ secrets, Redactable other)
    (hsecret : Redactable secret)
    (h : secret ∈ secrets ∨ ¬ secret <:+: value) :
    ¬ secret <:+: secrets.foldl
      (fun redacted other => replaceAll other tangleLogRedacted redacted) value := by
  induction secrets generalizing value with
  | nil => exact h.resolve_left List.not_mem_nil
  | cons first rest ih =>
    refine ih (fun other hother => hsecrets other (List.mem_cons_of_mem _ hother)) ?_
    rcases h with hmem | hnot
    · rcases List.mem_cons.mp hmem with rfl | hlater
      · exact .inr (not_infix_replaceAll_self hsecret)
      · exact .inl hlater
    · exact .inr (not_infix_replaceAll hsecret
        (hsecrets first (List.mem_cons_self ..)).nonempty hnot)

/-- A relay's secret can be taken out: it has no bracket in it and is longer than the word between
them. -/
theorem RelaySecret.redactable (secret : RelaySecret) : Redactable secret.text := by
  obtain ⟨text, hlength, hhex⟩ := secret
  have hall := List.all_eq_true.mp hhex
  constructor
  · rintro rfl
    cases hlength
  · intro hmem
    exact absurd (hall _ hmem) (by decide)
  · intro hmem
    exact absurd (hall _ hmem) (by decide)
  · intro hwithin
    have hle := hwithin.length_le
    rw [hlength] at hle
    exact absurd hle (by decide)

/-- A single secret is the list of secrets. -/
theorem secrets_of_single (secret : RelaySecret) :
    TangleLogRedactor.sortedSecrets [secret.text] = [secret.text] := by
  have hempty : secret.text.isEmpty = false := by
    simpa using secret.redactable.nonempty
  unfold TangleLogRedactor.sortedSecrets
  rw [List.filter_cons_of_pos (by simp [hempty]), List.filter_nil, List.mergeSort_singleton]
  rfl

end

/-- **Redacted messages hold no secret.** Whatever secrets are taken out of a message, if none has
the brackets of what is put in their place nor stands in it, no secret is in what is left. The
relay's own secret is such: it is not in what is logged or printed, and between its places the
message stays as it is. -/
theorem redacted_holds_none (message : Text) :
    (∀ secrets : List Text, (∀ secret ∈ secrets, Redactable secret) →
      (TangleLogRedactor.new secrets).containsSecret
        ((TangleLogRedactor.new secrets).redact message) = false) ∧
    ∀ groups : GroupRuntimeConfig, (groups.relaySecret = none →
        sanitizeErrorMessage groups message = message) ∧
      ∀ secret, groups.relaySecret = some secret →
        ¬ secret.text <:+: sanitizeErrorMessage groups message ∧
        ∃ parts, message = secret.text.intercalate parts ∧
          sanitizeErrorMessage groups message = tangleLogRedacted.intercalate parts := by
  refine ⟨?_, fun groups => ⟨?_, ?_⟩⟩
  · intro secrets hsecrets
    refine List.any_eq_false.mpr fun secret hsecret => ?_
    have hredactable : ∀ other ∈ TangleLogRedactor.sortedSecrets secrets, Redactable other :=
      fun other hother => hsecrets other (TangleLogRedactor.mem_sortedSecrets.mp hother).1
    rw [decide_eq_true_eq]
    exact not_infix_foldl hredactable (hredactable secret hsecret) (.inl hsecret)
  · intro hnone
    unfold sanitizeErrorMessage TangleLogRedactor.fromRuntimeConfig TangleLogRedactor.redact
      TangleLogRedactor.new
    rw [hnone]
    show (TangleLogRedactor.sortedSecrets []).foldl _ message = _
    unfold TangleLogRedactor.sortedSecrets
    rw [List.filter_nil, List.mergeSort_nil]
    rfl
  · intro secret hsome
    have hredact : sanitizeErrorMessage groups message =
        replaceAll secret.text tangleLogRedacted message := by
      unfold sanitizeErrorMessage TangleLogRedactor.fromRuntimeConfig TangleLogRedactor.redact
        TangleLogRedactor.new
      rw [hsome]
      show (TangleLogRedactor.sortedSecrets [secret.text]).foldl _ message = _
      rw [secrets_of_single]
      rfl
    obtain ⟨parts, hparts, hreplaced, _⟩ :=
      @exists_parts_replaceAll _ _ _ tangleLogRedacted secret.redactable.nonempty message
    rw [hredact]
    exact ⟨not_infix_replaceAll_self secret.redactable, parts, hparts, hreplaced⟩

namespace Sample

/-- Two secrets: the first overlaps itself, and the second begins as the first ends. -/
def overlapping : List Text :=
  ["abab".toList, "babc".toList]

/-- Each of the two overlapping secrets can be taken out. -/
theorem overlapping_redactable : ∀ secret ∈ overlapping, Redactable secret := by
  intro secret hsecret
  simp only [overlapping, List.mem_cons, List.not_mem_nil, or_false] at hsecret
  rcases hsecret with rfl | rfl
  · exact ⟨by decide, by decide, by decide, by decide⟩
  · exact ⟨by decide, by decide, by decide, by decide⟩

/-- The two overlapping secrets are kept in their order. -/
theorem sortedSecrets_overlapping : TangleLogRedactor.sortedSecrets overlapping = overlapping := by
  have hkept : (overlapping.filter fun secret => !secret.isEmpty) = overlapping := by
    decide +kernel
  have hsorted : overlapping.Pairwise fun a b => decide (a ≤ b) = true := by
    decide +kernel
  unfold TangleLogRedactor.sortedSecrets
  rw [hkept, List.mergeSort_of_pairwise hsorted]
  decide +kernel

/-- A message with two overlapping secrets loses one and then the other. -/
theorem redact_overlapping (message : Text) :
    (TangleLogRedactor.new overlapping).redact message =
      replaceAll "babc".toList tangleLogRedacted
        (replaceAll "abab".toList tangleLogRedacted message) := by
  have hfold : (TangleLogRedactor.new overlapping).redact message =
      (TangleLogRedactor.sortedSecrets overlapping).foldl
        (fun redacted secret => replaceAll secret tangleLogRedacted redacted) message := rfl
  rw [hfold, sortedSecrets_overlapping]
  rfl

end Sample

open Sample in
/-- Where the two secrets overlap, the first is taken out and what is left of the second stays. -/
theorem redacted_holds_none_overlapping :
    (TangleLogRedactor.new overlapping).redact "xababc babc".toList =
        "x<redacted>c <redacted>".toList ∧
      (TangleLogRedactor.new overlapping).containsSecret
        ((TangleLogRedactor.new overlapping).redact "xababc babc".toList) = false := by
  refine ⟨?_, (redacted_holds_none _).1 overlapping overlapping_redactable⟩
  rw [redact_overlapping]
  decide +kernel

end Tangle
