import C3RSpec.Authority.Fingerprint
import C3RSpec.Base.Sorting

/-!
# Fingerprints identify actions

`c3r/authority.py:12–23`, where no text of a candidate holds a surrogate. Such texts are told apart
by their code units, and sorted payloads are equal when they hold the same pairs.
-/

namespace C3RSpec.Authority

open Base

/-- No text of the candidate holds a surrogate. -/
structure ScalarTexts (c : ActionCandidate) : Prop where
  id : c.id.IsScalar
  requestedVerifier : ∀ v, c.requestedVerifier = some v → v.IsScalar
  payload : ∀ e ∈ c.payload, e.1.IsScalar ∧ e.2.IsScalar

/-- The same action; the order of the payload plays no part. -/
structure SameAction (a b : ActionCandidate) : Prop where
  id : a.id = b.id
  family : a.family = b.family
  riskClass : a.riskClass = b.riskClass
  optimisticUtility : a.optimisticUtility = b.optimisticUtility
  requestedVerifier : a.requestedVerifier = b.requestedVerifier
  payload : a.payload.Perm b.payload

/-! ### Payloads -/

private theorem sortedPayload_perm (payload : List (Text × Text)) :
    (sortedPayload payload).Perm payload :=
  sortOn_perm toLex payload

/-- The order of a payload is lost, and nothing else. -/
theorem sortedPayload_eq_iff {p q : List (Text × Text)} :
    sortedPayload p = sortedPayload q ↔ p.Perm q := by
  constructor
  · intro h
    have hp := (sortedPayload_perm p).symm
    rw [h] at hp
    exact hp.trans (sortedPayload_perm q)
  · intro h
    exact sortOn_eq_of_perm h fun a _ b _ hab ↦ toLex.injective hab

private theorem pairUnits_inj {e f : Text × Text} (he : e.1.IsScalar ∧ e.2.IsScalar)
    (hf : f.1.IsScalar ∧ f.2.IsScalar) (h : pairUnits e = pairUnits f) : e = f := by
  obtain ⟨hfst, hsnd⟩ := Prod.mk.inj h
  apply Prod.ext
  · exact Text.units_inj_of_isScalar he.1 hf.1 hfst
  · exact Text.units_inj_of_isScalar he.2 hf.2 hsnd

private theorem map_pairUnits_inj {es fs : List (Text × Text)}
    (hes : ∀ e ∈ es, e.1.IsScalar ∧ e.2.IsScalar) (hfs : ∀ f ∈ fs, f.1.IsScalar ∧ f.2.IsScalar)
    (h : es.map pairUnits = fs.map pairUnits) : es = fs := by
  induction es generalizing fs with
  | nil => exact (List.map_eq_nil_iff.mp h.symm).symm
  | cons e es ih =>
    cases fs with
    | nil => cases h
    | cons f fs =>
      rw [List.forall_mem_cons] at hes hfs
      obtain ⟨hhead, htail⟩ := List.cons.inj h
      rw [pairUnits_inj hes.1 hfs.1 hhead, ih hes.2 hfs.2 htail]

/-! ### Candidates -/

/-- Without surrogates, candidates that are written alike are the same action. -/
theorem writtenAlike_iff {a b : ActionCandidate} (ha : ScalarTexts a) (hb : ScalarTexts b) :
    WrittenAlike a b ↔ SameAction a b := by
  constructor
  · intro h
    refine ⟨?_, h.family, h.riskClass, h.optimisticUtility, ?_, ?_⟩
    · exact Text.units_inj_of_isScalar ha.id hb.id h.id
    · have hverifier := h.requestedVerifier
      cases hav : a.requestedVerifier with
      | none =>
        cases hbv : b.requestedVerifier with
        | none => rfl
        | some w =>
          rw [hav, hbv] at hverifier
          cases hverifier
      | some v =>
        cases hbv : b.requestedVerifier with
        | none =>
          rw [hav, hbv] at hverifier
          cases hverifier
        | some w =>
          rw [hav, hbv] at hverifier
          have hunits : v.units = w.units := Option.some.inj hverifier
          rw [Text.units_inj_of_isScalar (ha.requestedVerifier v hav)
            (hb.requestedVerifier w hbv) hunits]
    · apply sortedPayload_eq_iff.mp
      apply map_pairUnits_inj ?_ ?_ h.payload
      · exact fun e he ↦ ha.payload e ((sortedPayload_perm _).mem_iff.mp he)
      · exact fun f hf ↦ hb.payload f ((sortedPayload_perm _).mem_iff.mp hf)
  · intro h
    refine ⟨h.family, congrArg Text.units h.id, h.optimisticUtility, ?_, ?_, h.riskClass⟩
    · rw [sortedPayload_eq_iff.mpr h.payload]
    · rw [h.requestedVerifier]

section Identity

variable [FloatText] [Digest]

/-- With an injective digest, two candidates without surrogates have one fingerprint exactly when
they are the same action. -/
theorem fingerprint_identifies (hinj : Function.Injective Digest.sha256Hex) {a b : ActionCandidate}
    (ha : ScalarTexts a) (hb : ScalarTexts b) :
    actionFingerprint a = actionFingerprint b ↔ SameAction a b := by
  rw [actionFingerprint_eq_iff hinj]
  exact writtenAlike_iff ha hb

end Identity

section Sample

attribute [local instance] Digest.transparent FloatText.fraction

/-- An action with a payload. -/
def payloadAction (payload : List (Text × Text)) : ActionCandidate :=
  { id := "read", family := .tool, riskClass := .readOnly, optimisticUtility := .fin 1, payload }

private theorem scalarTexts_payload {payload : List (Text × Text)}
    (h : ∀ e ∈ payload, e.1.IsScalar ∧ e.2.IsScalar) : ScalarTexts (payloadAction payload) :=
  ⟨Text.isScalar_of_isAscii (show (Text.ofString "read").isAscii = true by decide),
    fun _ hv ↦ (nomatch hv), h⟩

/-- A payload in another order keeps the fingerprint, and a payload with a pair twice does not. -/
theorem fingerprint_identifies_payload :
    actionFingerprint (payloadAction [("q", [0x1F600]), ("p", "x")]) =
        actionFingerprint (payloadAction [("p", "x"), ("q", [0x1F600])]) ∧
      actionFingerprint (payloadAction [("p", "x"), ("p", "x")]) ≠
        actionFingerprint (payloadAction [("p", "x")]) := by
  have hp : Text.IsScalar "p" := Text.isScalar_of_isAscii (by decide)
  have hq : Text.IsScalar "q" := Text.isScalar_of_isAscii (by decide)
  have hx : Text.IsScalar "x" := Text.isScalar_of_isAscii (by decide)
  have hsmile : Text.IsScalar [0x1F600] := by
    intro c hc
    rw [List.mem_singleton.mp hc]
    decide
  have hinj : Function.Injective Digest.sha256Hex := hexBytes_injective
  constructor
  · apply (fingerprint_identifies hinj ?_ ?_).mpr
    · exact ⟨rfl, rfl, rfl, rfl, rfl, List.Perm.swap _ _ _⟩
    · exact scalarTexts_payload (List.forall_mem_cons.mpr
        ⟨⟨hq, hsmile⟩, List.forall_mem_singleton.mpr ⟨hp, hx⟩⟩)
    · exact scalarTexts_payload (List.forall_mem_cons.mpr
        ⟨⟨hp, hx⟩, List.forall_mem_singleton.mpr ⟨hq, hsmile⟩⟩)
  · intro h
    have hsame := (fingerprint_identifies hinj ?_ ?_).mp h
    · exact absurd hsame.payload.length_eq (by decide)
    · exact scalarTexts_payload (List.forall_mem_cons.mpr
        ⟨⟨hp, hx⟩, List.forall_mem_singleton.mpr ⟨hp, hx⟩⟩)
    · exact scalarTexts_payload (List.forall_mem_singleton.mpr ⟨hp, hx⟩)

end Sample

end C3RSpec.Authority
