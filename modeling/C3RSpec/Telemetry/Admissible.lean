import C3RSpec.Base.JsonScalar
import C3RSpec.Telemetry.StoreLedger

/-!
# Admitted traces are stored

An admitted trace holds only tokens and finite numbers, so its payload serializes, encodes and
hashes. What can still refuse an append is the clock, an overdue purge or a repeated run id.
-/

namespace C3RSpec.Telemetry

open Base

private theorem isScalar_of_isToken {t : Text} (h : isToken t = true) : t.IsScalar :=
  Text.isScalar_of_isAscii (isAscii_of_isToken h)

private theorem dictJson_allFinite {V : Type} {f : V → Json} {d : Dict Text V}
    (h : ∀ e ∈ d.entries, (f e.2).allFinite = true) : (dictJson f d).allFinite = true := by
  refine (membersFinite_iff _).mpr fun e he ↦ ?_
  obtain ⟨x, hx, rfl⟩ := List.mem_map.mp he
  exact h x hx

private theorem dictJson_allScalar {V : Type} {f : V → Json} {d : Dict Text V}
    (h : ∀ e ∈ d.entries, isToken e.1 = true ∧ (f e.2).AllScalar) :
    (dictJson f d).AllScalar := by
  refine (membersScalar_iff _).mpr fun e he ↦ ?_
  obtain ⟨x, hx, rfl⟩ := List.mem_map.mp he
  exact ⟨isScalar_of_isToken (h x hx).1, (h x hx).2⟩

private theorem textsJson_allScalar {ts : List Text} (h : ∀ t ∈ ts, isToken t = true) :
    (textsJson ts).AllScalar := by
  refine (elementsScalar_iff _).mpr fun x hx ↦ ?_
  obtain ⟨t, ht, rfl⟩ := List.mem_map.mp hx
  exact isScalar_of_isToken (h t ht)

private theorem textsJson_allFinite (ts : List Text) : (textsJson ts).allFinite = true := by
  refine (elementsFinite_iff _).mpr fun x hx ↦ ?_
  obtain ⟨t, -, rfl⟩ := List.mem_map.mp hx
  rfl

private theorem numbers_finite {d : Dict Text PyFloat} (h : namedNumbers d = true) :
    (dictJson .float d).allFinite = true := by
  refine dictJson_allFinite fun e he ↦ ?_
  have := List.all_eq_true.mp h e he
  rw [Bool.and_eq_true] at this
  exact this.2

private theorem numbers_scalar {d : Dict Text PyFloat} (h : namedNumbers d = true) :
    (dictJson .float d).AllScalar := by
  refine dictJson_allScalar fun e he ↦ ?_
  have := List.all_eq_true.mp h e he
  rw [Bool.and_eq_true] at this
  exact ⟨this.1, trivial⟩

/-- An admitted trace holds no NaN and no infinity. -/
theorem Admitted.allFinite {t : DecisionTrace} (h : Admitted t) : t.asdict.allFinite = true := by
  have probabilities :
      (dictJson (fun ps ↦ Json.arr (ps.map .float)) t.probabilities).allFinite = true := by
    refine dictJson_allFinite fun e he ↦ (elementsFinite_iff _).mpr fun x hx ↦ ?_
    obtain ⟨p, hp, rfl⟩ := List.mem_map.mp hx
    have hall := List.all_eq_true.mp h.probabilities e he
    rw [Bool.and_eq_true] at hall
    have hprob := List.all_eq_true.mp hall.2 p hp
    rw [isProbability, Bool.and_eq_true, Bool.and_eq_true] at hprob
    exact hprob.1.1
  have outcome : (dictJson Scalar.toJson t.taskOutcome).allFinite = true := by
    refine dictJson_allFinite fun e he ↦ ?_
    have hall := (h.taskOutcome e he).2
    cases hv : e.2 with
    | text s => rfl
    | bool b => rfl
    | float x =>
      rw [hv] at hall
      exact hall
  have selected : (t.selectedActionId.elim Json.null .str).allFinite = true := by
    cases t.selectedActionId <;> rfl
  simp only [DecisionTrace.asdict, Json.allFinite, membersFinite, textsJson_allFinite,
    probabilities, outcome, selected, numbers_finite h.utilityQuantiles,
    numbers_finite h.systemCost, Bool.and_self]

/-- An admitted trace holds no surrogate. -/
theorem Admitted.allScalar {t : DecisionTrace} (h : Admitted t) : t.asdict.AllScalar := by
  have id : ∀ id ∈ Telemetry.identifiers t, id.IsScalar := fun id hid ↦
    isScalar_of_isToken (h.identifiers id hid)
  have hash : t.stateHash.IsScalar := by
    have := h.stateHash
    rw [isHash, Bool.and_eq_true] at this
    exact Text.isScalar_of_isAscii (isAscii_of_hex this.2)
  have candidates : (textsJson t.candidateIds).AllScalar :=
    textsJson_allScalar fun c hc ↦ h.identifiers c (by simp [Telemetry.identifiers, hc])
  have refs : (textsJson t.artifactRefs).AllScalar :=
    textsJson_allScalar fun c hc ↦ h.identifiers c (by simp [Telemetry.identifiers, hc])
  have probabilities :
      (dictJson (fun ps ↦ Json.arr (ps.map .float)) t.probabilities).AllScalar := by
    refine dictJson_allScalar fun e he ↦ ?_
    have hall := List.all_eq_true.mp h.probabilities e he
    rw [Bool.and_eq_true, Bool.and_eq_true] at hall
    refine ⟨hall.1.1, (elementsScalar_iff _).mpr fun x hx ↦ ?_⟩
    obtain ⟨p, -, rfl⟩ := List.mem_map.mp hx
    trivial
  have outcome : (dictJson Scalar.toJson t.taskOutcome).AllScalar := by
    refine dictJson_allScalar fun e he ↦ ?_
    obtain ⟨hk, hv⟩ := h.taskOutcome e he
    refine ⟨hk, ?_⟩
    cases he2 : e.2 with
    | text s =>
      rw [he2] at hv
      exact isScalar_of_isToken hv
    | bool b => trivial
    | float x => trivial
  have selected : (t.selectedActionId.elim Json.null .str).AllScalar := by
    cases hs : t.selectedActionId with
    | none => trivial
    | some s => exact id s (by simp [Telemetry.identifiers, hs])
  have key : ∀ k : String, (Text.ofString k).isAscii = true → (Text.ofString k).IsScalar :=
    fun k hk ↦ Text.isScalar_of_isAscii hk
  exact ⟨key _ (by decide), id _ (by simp [Telemetry.identifiers]), key _ (by decide), hash,
    key _ (by decide), id _ (by simp [Telemetry.identifiers]), key _ (by decide),
    id _ (by simp [Telemetry.identifiers]), key _ (by decide), candidates, key _ (by decide),
    probabilities, key _ (by decide), numbers_scalar h.utilityQuantiles, key _ (by decide), selected,
    key _ (by decide), id _ (by simp [Telemetry.identifiers]), key _ (by decide),
    numbers_scalar h.systemCost, key _ (by decide), outcome, key _ (by decide), refs, trivial⟩

section Commit

variable [FloatText]

/-- An admitted trace is serialized, unless the cutoff leaves the calendar. -/
theorem exists_serialize_iff {trace : DecisionTrace} (h : Admitted trace) (sourceId taskId : Text)
    {now : DateTime} :
    (∃ p, serialize trace sourceId taskId now = .ok p) ↔ retentionDays < now.toOrdinal := by
  rw [← DateTime.exists_minusDays_iff]
  constructor
  · rintro ⟨p, hp⟩
    obtain ⟨cutoff, payload, hc, -⟩ := serialize_eq_ok hp
    exact ⟨cutoff, hc⟩
  · rintro ⟨cutoff, hc⟩
    have hf : (payloadJson now.isoformat sourceId taskId trace).allFinite = true := by
      simp only [payloadJson, Json.allFinite, membersFinite, h.allFinite, Bool.and_self]
    refine ⟨⟨trace.runId, now.isoformat, cutoff.isoformat,
      (payloadJson now.isoformat sourceId taskId trace).sortKeys.render false⟩, ?_⟩
    simp only [serialize, retentionCutoff, hc, dumps, hf, Bool.not_true, Bool.and_false,
      Bool.false_eq_true, if_false]
    rfl

/-- The payload of an admitted trace from an approved task can be encoded. -/
theorem isScalar_payload {grants : Grants} {trace : DecisionTrace} {sourceId taskId : Text}
    {now : DateTime} {p : Prepared} (ha : admitTrace grants trace sourceId taskId = .ok ())
    (hp : serialize trace sourceId taskId now = .ok p) : p.payload.IsScalar := by
  obtain ⟨grant, hg, ht, h⟩ := admitTrace_eq_ok.mp ha
  obtain ⟨cutoff, payload, -, hdump, rfl⟩ := serialize_eq_ok hp
  have key : ∀ k : String, (Text.ofString k).isAscii = true → (Text.ofString k).IsScalar :=
    fun k hk ↦ Text.isScalar_of_isAscii hk
  have hsource : sourceId.IsScalar := by
    rw [← grants.keyed sourceId grant hg]
    exact isScalar_of_isToken (grant.tokens _ List.mem_cons_self)
  have htask : taskId.IsScalar :=
    isScalar_of_isToken (grant.tokens _ (List.mem_cons_of_mem _ (List.mem_cons_of_mem _ ht)))
  have hjson : (payloadJson now.isoformat sourceId taskId trace).AllScalar :=
    ⟨key _ (by decide), Text.isScalar_of_isAscii now.isAscii_isoformat, key _ (by decide), hsource,
      key _ (by decide), htask, key _ (by decide), h.allScalar, trivial⟩
  exact (isScalar_dumps false hdump).mpr fun _ ↦ hjson

variable [Digest]

private theorem isHex_of_rowVerified {row : Row} (h : rowVerified row = .ok true) :
    row.recordHash.all isHexChar = true := by
  unfold rowVerified at h
  split at h
  · cases h
  · split at h
    · cases h
    · split at h
      · cases h
      · split at h
        · cases h
        · obtain ⟨digest, hd, h⟩ := bind_eq_ok.mp h
          obtain ⟨bytes, -, hd⟩ := bind_eq_ok.mp hd
          have he : digest = row.recordHash := of_decide_eq_true (Except.ok.inj h)
          rw [← he, ← Except.ok.inj hd]
          exact Digest.isHex_sha256Hex bytes

/-- The head hash of a sound ledger is hexadecimal. -/
theorem Ledger.Sound.isHex_headHash {l : Ledger} (h : l.Sound) :
    l.headHash.all isHexChar = true := by
  rw [Ledger.headHash, PrunedLog.head, PrunedLog.linkAfter]
  cases hl : l.history.getLast? with
  | none => decide
  | some row =>
    obtain ⟨i, hi⟩ := List.mem_iff_getElem?.mp (List.mem_of_getLast? hl)
    exact isHex_of_rowVerified (h.rows i row hi).verified

/-- An append commits exactly when the clock has not gone backwards, nothing is overdue and the
run id is new. -/
theorem Shows.appendTransaction_ok_iff {db : Db} {l : Ledger} (hs : Shows db l) (h : l.Sound)
    {p : Prepared} (hp : p.payload.IsScalar) :
    (∃ r, appendTransaction db p = .ok r) ↔
      l.lastCollectedAt ≤ p.collectedAt ∧
      (∀ row ∈ db.rows, ¬ row.collectedAt ≤ p.retentionCutoff) ∧
      ∀ row ∈ db.rows, row.runId ≠ p.runId := by
  constructor
  · rintro ⟨⟨record, db'⟩, hr⟩
    obtain ⟨md, digest, hmd, hback, hover, -, huniq, -⟩ := appendTransaction_eq_ok hr
    rw [hs.metadata] at hmd
    cases hmd
    exact ⟨not_lt.mp hback, hover, huniq⟩
  · rintro ⟨hlast, hover, huniq⟩
    have hprev := hs.previousHash hs.metadata
    obtain ⟨bytes, hbytes⟩ := Text.exists_encodeUtf8_iff.mpr (Text.isScalar_append_iff.mpr
      ⟨Text.isScalar_of_isAscii (isAscii_of_hex h.isHex_headHash),
        (Text.isScalar_cons_iff (c := 10) (by decide)).mpr hp⟩)
    have hhash : recordHash l.headHash p.payload = .ok (Digest.sha256Hex bytes) := by
      rw [recordHash, hbytes]
      rfl
    have hover' : (db.rows.any fun row ↦ decide (row.collectedAt ≤ p.retentionCutoff)) = false := by
      simpa using hover
    have huniq' : (db.rows.any fun row ↦ decide (row.runId = p.runId)) = false := by
      simpa using huniq
    simp only [appendTransaction, hs.metadata, if_neg (not_lt.mpr hlast), hover', huniq', hprev,
      hhash, Bool.false_eq_true, if_false]
    exact ⟨_, rfl⟩

end Commit

end C3RSpec.Telemetry
