import C3RSpec.Base.Digest
import C3RSpec.Base.Fields
import C3RSpec.Base.JsonScalar
import C3RSpec.StateSchema
import Mathlib.Data.Prod.Lex

/-!
# Attestation primitives

`c3r/authority.py:12–34`. The fingerprint digests the canonical JSON of a candidate; an
attestation signs its fields joined with NUL. Nothing checks that a field is free of NUL.
-/

namespace C3RSpec.Authority

open Base

/-- The separator of signed fields, `"\x00"`. -/
def nul : CodePoint := 0

/-- `sorted(candidate.payload)`: pairs in lexicographic order. -/
def sortedPayload (payload : List (Text × Text)) : List (Text × Text) :=
  payload.insertionSort fun a b ↦ toLex a ≤ toLex b

/-- The `canonical` dictionary of a candidate. -/
def canonicalAction (c : ActionCandidate) : Json :=
  .obj [
    ("family", .str c.family.value),
    ("id", .str c.id),
    ("optimistic_utility", .float c.optimisticUtility),
    ("payload", .arr ((sortedPayload c.payload).map fun e ↦ .arr [.str e.1, .str e.2])),
    ("requested_verifier", c.requestedVerifier.elim .null .str),
    ("risk_class", .str c.riskClass.value)]

section Signing

variable [Digest]

/-- `sign_fields`. -/
def signFields (key : ByteArray) (fields : List Text) : Except PyError Text :=
  if key.size < 16 then .error (valueError "attestation keys must contain at least 16 bytes")
  else do
    let payload ← (Text.join nul fields).encodeUtf8
    return Digest.hmacSha256Hex key payload

/-- `attestation_matches`. -/
def attestationMatches (attestation : Text) (key : ByteArray) (fields : List Text) :
    Except PyError Bool := do
  let expected ← signFields key fields
  compareDigest attestation expected

/-- A signature is the tag of the joined and encoded fields. -/
theorem signFields_eq_ok {key : ByteArray} {fields : List Text} {tag : Text} :
    signFields key fields = .ok tag ↔ 16 ≤ key.size ∧
      ∃ payload, (Text.join nul fields).encodeUtf8 = .ok payload ∧
        Digest.hmacSha256Hex key payload = tag := by
  unfold signFields
  split
  · next h =>
    constructor
    · intro he
      cases he
    · rintro ⟨hk, -⟩
      omega
  · next h =>
    rw [bind_eq_ok]
    constructor
    · rintro ⟨payload, hp, ht⟩
      exact ⟨by omega, payload, hp, Except.ok.inj ht⟩
    · rintro ⟨-, payload, hp, ht⟩
      exact ⟨payload, hp, congrArg Except.ok ht⟩

/-- Scalar fields can be signed, and no others. -/
theorem exists_signFields_iff {key : ByteArray} {fields : List Text} :
    (∃ tag, signFields key fields = .ok tag) ↔ 16 ≤ key.size ∧ ∀ f ∈ fields, f.IsScalar := by
  rw [← Text.isScalar_join_iff (show (CodePoint.toChar? nul).isSome by decide),
    ← Text.exists_encodeUtf8_iff]
  constructor
  · rintro ⟨tag, h⟩
    obtain ⟨hkey, payload, hp, -⟩ := signFields_eq_ok.mp h
    exact ⟨hkey, payload, hp⟩
  · rintro ⟨hkey, payload, hp⟩
    exact ⟨_, signFields_eq_ok.mpr ⟨hkey, payload, hp, rfl⟩⟩

/-- A matching attestation is the signature of the fields. -/
theorem attestationMatches_eq_true {attestation : Text} {key : ByteArray} {fields : List Text} :
    attestationMatches attestation key fields = .ok true ↔
      signFields key fields = .ok attestation := by
  unfold attestationMatches
  rw [bind_eq_ok]
  constructor
  · rintro ⟨expected, hs, hc⟩
    rw [compareDigest_eq_true hc, hs]
  · intro hs
    obtain ⟨-, payload, -, ht⟩ := signFields_eq_ok.mp hs
    refine ⟨attestation, hs, compareDigest_self ?_⟩
    rw [← ht]
    exact Digest.isHex_hmacSha256Hex key payload

end Signing

section Fingerprint

variable [Digest] [FloatText]

/-- `action_fingerprint`. -/
def actionFingerprint (c : ActionCandidate) : Except PyError Text := do
  let canonical ← dumps true true (canonicalAction c)
  let encoded ← canonical.encodeUtf8
  return Digest.sha256Hex encoded

/-- Every candidate has a fingerprint: its canonical text is ASCII. -/
theorem exists_actionFingerprint (c : ActionCandidate) :
    ∃ canonical encoded, dumps true true (canonicalAction c) = .ok canonical ∧
      canonical.encodeUtf8 = .ok encoded ∧
      actionFingerprint c = .ok (Digest.sha256Hex encoded) := by
  obtain ⟨canonical, hcanonical⟩ :
      ∃ canonical, dumps true true (canonicalAction c) = .ok canonical :=
    ⟨_, by rw [dumps, Bool.not_true, Bool.false_and, if_neg Bool.false_ne_true]⟩
  have hscalar := (isScalar_dumps true hcanonical).mpr fun h ↦ by cases h
  obtain ⟨encoded, hencoded⟩ := Text.exists_encodeUtf8_iff.mpr hscalar
  refine ⟨canonical, encoded, hcanonical, hencoded, ?_⟩
  rw [actionFingerprint, hcanonical]
  change canonical.encodeUtf8 >>= _ = _
  rw [hencoded]
  rfl

/-- A fingerprint is hexadecimal text. -/
theorem isHex_actionFingerprint {c : ActionCandidate} {fingerprint : Text}
    (h : actionFingerprint c = .ok fingerprint) : fingerprint.all isHexChar = true := by
  unfold actionFingerprint at h
  obtain ⟨canonical, -, h⟩ := bind_eq_ok.mp h
  obtain ⟨encoded, -, h⟩ := bind_eq_ok.mp h
  cases h
  exact Digest.isHex_sha256Hex encoded

/-- A fingerprint never holds the separator. -/
theorem nul_notMem_actionFingerprint {c : ActionCandidate} {fingerprint : Text}
    (h : actionFingerprint c = .ok fingerprint) : nul ∉ fingerprint := by
  intro hm
  have := List.all_eq_true.mp (isHex_actionFingerprint h) nul hm
  exact absurd this (by decide)

end Fingerprint

end C3RSpec.Authority
