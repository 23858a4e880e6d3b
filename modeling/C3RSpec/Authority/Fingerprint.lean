import C3RSpec.Authority.Attestation
import C3RSpec.Base.JsonUnits

/-!
# What a fingerprint determines

`c3r/authority.py:12–23`. `json.dumps` escapes everything outside ASCII, so the canonical text of a
candidate determines its fields up to the order of the payload and up to the code units of its
texts: a character beyond the basic plane and its two surrogates have one fingerprint.
-/

namespace C3RSpec.Authority

open Base

/-- The units of a pair of the payload. -/
def pairUnits (e : Text × Text) : Text × Text := (e.1.units, e.2.units)

/-- Two candidates have the same canonical text. -/
structure WrittenAlike (a b : ActionCandidate) : Prop where
  family : a.family = b.family
  id : a.id.units = b.id.units
  optimisticUtility : a.optimisticUtility = b.optimisticUtility
  payload : (sortedPayload a.payload).map pairUnits = (sortedPayload b.payload).map pairUnits
  requestedVerifier : a.requestedVerifier.map Text.units = b.requestedVerifier.map Text.units
  riskClass : a.riskClass = b.riskClass

/-- The JSON value of a pair of the payload. -/
def pairJson (e : Text × Text) : Json := .arr [.str e.1, .str e.2]

private theorem sortElements_pairs (es : List (Text × Text)) :
    sortElements (es.map pairJson) = es.map pairJson := by
  induction es with
  | nil => rfl
  | cons e es ih =>
    rw [List.map_cons, sortElements, ih]
    rfl

private theorem sortKeys_canonicalAction (c : ActionCandidate) :
    (canonicalAction c).sortKeys = canonicalAction c := by
  have hverifier : (c.requestedVerifier.elim Json.null Json.str).sortKeys =
      c.requestedVerifier.elim Json.null Json.str := by
    cases c.requestedVerifier <;> rfl
  have hpayload : (Json.arr ((sortedPayload c.payload).map pairJson)).sortKeys =
      .arr ((sortedPayload c.payload).map pairJson) := by
    rw [Json.sortKeys, sortElements_pairs]
  have hkeys : ([Text.ofString "family", Text.ofString "id", Text.ofString "optimistic_utility",
      Text.ofString "payload", Text.ofString "requested_verifier",
      Text.ofString "risk_class"]).Pairwise (· ≤ ·) := by
    decide
  change Json.obj ((sortMembers [_, _, _, (Text.ofString "payload",
    Json.arr ((sortedPayload c.payload).map pairJson)), _, _]).insertionSort keyLe) = _
  simp only [sortMembers, hverifier, hpayload]
  rw [List.Pairwise.insertionSort_eq]
  · rfl
  · exact (List.pairwise_map (f := Prod.fst) (R := (· ≤ ·))).mp hkeys

private theorem family_inj {a b : ActionFamily} (h : a.value.units = b.value.units) : a = b := by
  have hascii : ∀ f : ActionFamily, f.value.isAscii = true := fun f ↦ by cases f <;> decide
  rw [Text.units_of_ascii (hascii a), Text.units_of_ascii (hascii b)] at h
  revert h
  cases a <;> cases b <;> decide

private theorem risk_inj {a b : RiskClass} (h : a.value.units = b.value.units) : a = b := by
  have hascii : ∀ r : RiskClass, r.value.isAscii = true := fun r ↦ by cases r <;> decide
  rw [Text.units_of_ascii (hascii a), Text.units_of_ascii (hascii b)] at h
  revert h
  cases a <;> cases b <;> decide

private theorem elementUnits_pairs (es : List (Text × Text)) :
    elementUnits (es.map pairJson) = (es.map pairUnits).map pairJson := by
  rw [elementUnits_eq_map, List.map_map, List.map_map]
  rfl

private theorem pairJson_injective : Function.Injective pairJson := by
  intro e f h
  simp only [pairJson, Json.arr.injEq, List.cons.injEq, Json.str.injEq, and_true] at h
  exact Prod.ext h.1 h.2

private theorem units_verifier_iff {a b : Option Text} :
    (a.elim Json.null Json.str).units = (b.elim Json.null Json.str).units ↔
      a.map Text.units = b.map Text.units := by
  cases a <;> cases b <;> simp [Json.units]

-- The keys are the same six literals, so the units of two candidates are compared value by value.
private theorem units_canonicalAction_iff {a b : ActionCandidate} :
    (canonicalAction a).units = (canonicalAction b).units ↔ WrittenAlike a b := by
  have hunits : ∀ c : ActionCandidate, (canonicalAction c).units =
      .obj [((Text.ofString "family").units, .str c.family.value.units),
        ((Text.ofString "id").units, .str c.id.units),
        ((Text.ofString "optimistic_utility").units, .float c.optimisticUtility),
        ((Text.ofString "payload").units,
          .arr (((sortedPayload c.payload).map pairUnits).map pairJson)),
        ((Text.ofString "requested_verifier").units,
          (c.requestedVerifier.elim Json.null Json.str).units),
        ((Text.ofString "risk_class").units, .str c.riskClass.value.units)] := by
    intro c
    rw [← elementUnits_pairs]
    rfl
  rw [hunits, hunits]
  simp only [Json.obj.injEq, List.cons.injEq, Prod.mk.injEq, Json.str.injEq, Json.float.injEq,
    Json.arr.injEq, true_and, and_true, units_verifier_iff,
    (List.map_injective_iff.mpr pairJson_injective).eq_iff]
  constructor
  · rintro ⟨hfamily, hid, hutility, hpayload, hverifier, hrisk⟩
    exact ⟨family_inj hfamily, hid, hutility, hpayload, hverifier, risk_inj hrisk⟩
  · intro h
    exact ⟨by rw [h.family], h.id, h.optimisticUtility, h.payload, h.requestedVerifier,
      by rw [h.riskClass]⟩

variable [FloatText]

private theorem dumps_canonicalAction_iff {a b : ActionCandidate} :
    dumps true true (canonicalAction a) = dumps true true (canonicalAction b) ↔
      WrittenAlike a b := by
  rw [← units_canonicalAction_iff, ← Json.render_eq_iff, dumps, dumps, Bool.not_true,
    Bool.false_and, Bool.false_and, if_neg Bool.false_ne_true, if_neg Bool.false_ne_true,
    sortKeys_canonicalAction, sortKeys_canonicalAction, Except.ok.injEq]

variable [Digest]

/-- Candidates that are written alike have one fingerprint. -/
theorem actionFingerprint_congr {a b : ActionCandidate} (h : WrittenAlike a b) :
    actionFingerprint a = actionFingerprint b := by
  rw [actionFingerprint, actionFingerprint, dumps_canonicalAction_iff.mpr h]

/-- With an injective digest, only those have. -/
theorem actionFingerprint_eq_iff (hinj : Function.Injective Digest.sha256Hex)
    {a b : ActionCandidate} : actionFingerprint a = actionFingerprint b ↔ WrittenAlike a b := by
  refine ⟨fun h ↦ ?_, actionFingerprint_congr⟩
  obtain ⟨canonicalA, encodedA, hdumpsA, hencodedA, hA⟩ := exists_actionFingerprint a
  obtain ⟨canonicalB, encodedB, hdumpsB, hencodedB, hB⟩ := exists_actionFingerprint b
  rw [hA, hB, Except.ok.injEq] at h
  rw [hinj h] at hencodedA
  have hcanonical := Text.encodeUtf8_inj hencodedA hencodedB
  exact dumps_canonicalAction_iff.mp (by rw [hdumpsA, hdumpsB, hcanonical])

end C3RSpec.Authority
