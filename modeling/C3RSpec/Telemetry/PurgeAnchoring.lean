import C3RSpec.Telemetry.LedgerAnchor
import C3RSpec.Telemetry.RetentionInvariant

/-!
# Purging under anchors

The head of a store is the length of its history and the link after it, and a purge changes
neither. What is read from different places before and after is the same pair, so signed anchors
keep their meaning and later records continue the same chain.
-/

namespace C3RSpec.Telemetry

open Base

/-- A call that appends nothing leaves the head. -/
theorem Ledger.Moves.head_of_notAppended {l l' : Ledger} {result : Except PyError StoreResult}
    (h : l.Moves result l') (hr : ∀ record, result ≠ .ok (.appended record)) :
    l'.history.length = l.history.length ∧ l'.headHash = l.headHash := by
  cases h with
  | append row hp => exact absurd rfl (hr _)
  | prune n hn _ => exact ⟨rfl, rfl⟩
  | keep _ => exact ⟨rfl, rfl⟩

/-- An appended record continues from the head and becomes it. -/
theorem Ledger.Moves.head_of_appended {l l' : Ledger} {record : LedgerRecord}
    (h : l.Moves (.ok (.appended record)) l') :
    record.previousHash = l.headHash ∧ l'.headHash = record.recordHash := by
  cases h with
  | append row hp => exact ⟨hp, PrunedLog.linkAfter_concat _ _ _ _⟩
  | prune n hn hr => exact absurd rfl (hr _)
  | keep hr => exact absurd rfl (hr _)

/-- The pair that `snapshot_head` reports. -/
def LedgerHead.pair (h : LedgerHead) : Int × Text := (h.sequence, h.recordHash)

section Runs

variable [Digest] [FloatText]

/-- The record that a call appended. -/
def appendedRecord : Except PyError StoreResult → List LedgerRecord
  | .ok (.appended record) => [record]
  | .ok .opened | .ok (.purged _) | .ok .closed | .error _ => []

/-- The records appended by a sequence of calls, in order. -/
def appendedRecords : Store → List StoreOp → List LedgerRecord
  | _, [] => []
  | s, op :: ops => appendedRecord (s.step op).1 ++ appendedRecords (s.step op).2 ops

/-- The reported pair depends on the head of the ledger and the policy version only. -/
theorem Shows.snapshotHead {db : Db} {l : Ledger} (hs : Shows db l) (h : l.Sound)
    (policyVersion : Text) (now : DateTime) :
    db.snapshotHead policyVersion now =
      captureHead l.history.length l.headHash policyVersion now := by
  rw [Db.snapshotHead, hs.verifiedHead h]
  rfl

omit [Digest] [FloatText] in
private theorem pair_captureHead (sequence : Int) (hash policyVersion : Text)
    (now now' : DateTime) :
    (captureHead sequence hash policyVersion now).map LedgerHead.pair =
      (captureHead sequence hash policyVersion now').map LedgerHead.pair := by
  unfold captureHead
  split
  · rfl
  · split
    · rfl
    · rfl

omit [Digest] [FloatText] in
/-- A call appends one record or none. -/
theorem appendedRecord_cases (result : Except PyError StoreResult) :
    (∃ record, result = .ok (.appended record)) ∨
      ((∀ record, result ≠ .ok (.appended record)) ∧ appendedRecord result = []) := by
  cases result with
  | error e => exact .inr ⟨fun _ ↦ nofun, rfl⟩
  | ok r =>
    cases r with
    | appended record => exact .inl ⟨record, rfl⟩
    | opened => exact .inr ⟨fun _ ↦ nofun, rfl⟩
    | purged n => exact .inr ⟨fun _ ↦ nofun, rfl⟩
    | closed => exact .inr ⟨fun _ ↦ nofun, rfl⟩

/-- Records appended by any later calls continue from the head, one after another. -/
theorem Store.Inv.chained_appended {s : Store} {l : Ledger} (h : s.Inv l) (ops : List StoreOp) :
    PrunedLog.Chained LedgerRecord.recordHash LedgerRecord.previousHash l.headHash
      (appendedRecords s ops) := by
  induction ops generalizing s l with
  | nil => exact trivial
  | cons op ops ih =>
    obtain ⟨l', h', hm⟩ := h.step op
    have hrest := ih h'
    rw [appendedRecords, PrunedLog.chained_append]
    obtain ⟨record, hres⟩ | ⟨hres, hnil⟩ := appendedRecord_cases (s.step op).1
    · rw [hres] at hm ⊢
      obtain ⟨hp, hh⟩ := hm.head_of_appended
      rw [hh] at hrest
      exact ⟨⟨hp, trivial⟩, hrest⟩
    · rw [(hm.head_of_notAppended hres).2] at hrest
      rw [hnil]
      exact ⟨trivial, hrest⟩

/-- Calls that append nothing keep the head. -/
theorem Store.Inv.head_of_notAppended {s u : Store} {l : Ledger} (h : s.Inv l)
    {ops : List StoreOp} (hr : runAll Store.next s ops = some u)
    (hn : appendedRecords s ops = []) :
    ∃ l', u.Inv l' ∧ l'.history.length = l.history.length ∧ l'.headHash = l.headHash := by
  induction ops generalizing s l with
  | nil =>
    cases hr
    exact ⟨l, h, rfl, rfl⟩
  | cons op ops ih =>
    rw [appendedRecords, List.append_eq_nil_iff] at hn
    obtain ⟨l₁, h₁, hm⟩ := h.step op
    have hres : ∀ record, (s.step op).1 ≠ .ok (.appended record) := by
      intro record he
      rw [he] at hn
      cases hn.1
    obtain ⟨hlen, hhash⟩ := hm.head_of_notAppended hres
    obtain ⟨l', h', hlen', hhash'⟩ := ih h₁ hr hn.2
    exact ⟨l', h', hlen'.trans hlen, hhash'.trans hhash⟩

/-- A metadata row stays. -/
theorem Store.metadata_step {s : Store} (h : s.db.metadata.isSome) (op : StoreOp) :
    (s.step op).2.db.metadata.isSome := by
  cases op with
  | openStore grants fault =>
    simp only [Store.step, openStore]
    split
    · exact h
    · split
      · exact h
      · rfl
      · split <;> rfl
  | append trace sourceId taskId now fault =>
    have committed : ∀ p, (commitAppend s p).2.db.metadata.isSome := by
      intro p
      unfold commitAppend
      split
      · exact h
      · next record db ha =>
        obtain ⟨md, digest, -, -, -, -, -, -, rfl⟩ := appendTransaction_eq_ok ha
        rfl
    simp only [Store.step, appendStore]
    split
    · exact h
    · split
      · exact h
      · split
        · exact h
        · exact committed _
        · exact committed _
  | purgeExpired now fault =>
    have purged : ∀ at' cutoff, (purgeTransaction s.db at' cutoff).2.metadata.isSome := by
      intro at' cutoff
      unfold purgeTransaction
      dsimp only
      split
      · exact h
      · rw [Option.isSome_map]
        exact h
    simp only [Store.step, purgeExpired]
    split
    · exact h
    · split
      · exact h
      · split
        · exact h
        · exact purged _ _
        · exact purged _ _
  | close => exact h

/-- What `snapshot_head` and `verify_anchor` answer for a database. -/
def anchorAnswer (db : Db) (policyVersion : Text) (now : DateTime) (anchor : SignedLedgerAnchor)
    (verifier : Text → ByteArray → List UInt8 → Except PyError Bool) : Except PyError Bool := do
  let head ← db.snapshotHead policyVersion now
  verifyAnchor anchor head.sequence head.recordHash verifier

private theorem anchorAnswer_eq {db : Db} {l : Ledger} (hs : Shows db l) (h : l.Sound)
    (policyVersion : Text) (now : DateTime) (anchor : SignedLedgerAnchor)
    (verifier : Text → ByteArray → List UInt8 → Except PyError Bool) :
    anchorAnswer db policyVersion now anchor verifier =
      (do let pair ← (captureHead l.history.length l.headHash policyVersion now).map LedgerHead.pair
          verifyAnchor anchor pair.1 pair.2 verifier) := by
  rw [anchorAnswer, hs.snapshotHead h]
  cases captureHead l.history.length l.headHash policyVersion now with
  | error e => rfl
  | ok head => rfl

/-- In every reachable state, a purge that succeeds leaves the verified head, at once and after
further calls that append nothing, such as a reopen: the reported pair and the answer for any
signed anchor are the same, and what is appended afterwards continues from that head. -/
theorem purge_preserves_head (ops : List StoreOp) (s s' : Store)
    (hr : runAll Store.next Store.initial ops = some s) (now : DateTime) (fault : Fault) (n : Nat)
    (hp : s.step (.purgeExpired now fault) = (.ok (.purged n), s')) :
    ∃ head, s.db.verifiedHead = .ok (some head) ∧
      (∀ later u, runAll Store.next s' later = some u → appendedRecords s' later = [] →
        u.db.verifiedHead = .ok (some head) ∧
        (∀ policyVersion t t', (s.db.snapshotHead policyVersion t).map LedgerHead.pair =
          (u.db.snapshotHead policyVersion t').map LedgerHead.pair) ∧
        ∀ policyVersion t t' anchor verifier, anchorAnswer s.db policyVersion t anchor verifier =
          anchorAnswer u.db policyVersion t' anchor verifier) ∧
      ∀ later, PrunedLog.Chained LedgerRecord.recordHash LedgerRecord.previousHash head.2
        (appendedRecords s' later) := by
  obtain ⟨l, h⟩ := Store.exists_ledger hr
  have hopen : s.grants.isSome := by
    cases hg : s.grants with
    | some grants => rfl
    | none => simp [Store.step, purgeExpired, hg] at hp
  have hmd := h.created hopen
  obtain ⟨md, hmd'⟩ := Option.isSome_iff_exists.mp hmd
  have hs := h.shows_of_metadata hmd'
  -- the purge moves the ledger without appending
  obtain ⟨l₁, h₁, hm⟩ := h.step (.purgeExpired now fault)
  have hmd₁ := Store.metadata_step hmd (.purgeExpired now fault)
  rw [hp] at h₁ hm hmd₁
  obtain ⟨hlen₁, hhash₁⟩ := hm.head_of_notAppended fun _ he ↦ by cases he
  refine ⟨(l.history.length, l.headHash), hs.verifiedHead h.sound, ?_, ?_⟩
  · intro later u hu hnone
    obtain ⟨l₂, h₂, hlen₂, hhash₂⟩ := h₁.head_of_notAppended hu hnone
    have hmd₂ : u.db.metadata.isSome := by
      refine @runAll_invariant _ _ _ (fun s ↦ s.db.metadata.isSome) ?_ _ _ _ hmd₁ hu
      intro t op t' ht hstep
      cases hstep
      exact Store.metadata_step ht op
    obtain ⟨md₂, hmd₂⟩ := Option.isSome_iff_exists.mp hmd₂
    have hs₂ := h₂.shows_of_metadata hmd₂
    have hlen : l₂.history.length = l.history.length := hlen₂.trans hlen₁
    have hhash : l₂.headHash = l.headHash := hhash₂.trans hhash₁
    refine ⟨?_, fun policyVersion t t' ↦ ?_, fun policyVersion t t' anchor verifier ↦ ?_⟩
    · rw [hs₂.verifiedHead h₂.sound, hlen, hhash]
    · rw [hs.snapshotHead h.sound, hs₂.snapshotHead h₂.sound, hlen, hhash]
      exact pair_captureHead _ _ _ _ _
    · rw [anchorAnswer_eq hs h.sound, anchorAnswer_eq hs₂ h₂.sound, hlen, hhash,
        pair_captureHead _ _ _ t t']
  · intro later
    rw [← hhash₁]
    exact h₁.chained_appended later

end Runs

section Sample

attribute [local instance] Digest.rolling FloatText.fraction

/-- A month after the sample run every row is purged, and the head is the same. -/
theorem purge_preserves_head_sample :
    ∃ s s' head, runAll Store.next Store.initial sampleOps = some s ∧
      s.step (.purgeExpired { year := 2026, month := 9, day := 1 } .none) =
        (.ok (.purged 1), s') ∧
      s.db.verifiedHead = .ok (some head) ∧ s'.db.verifiedHead = .ok (some head) := by
  have hrun : (runAll Store.next Store.initial sampleOps).any (fun s ↦
      decide ((s.step (.purgeExpired { year := 2026, month := 9, day := 1 } .none)).1.toOption =
        some (.purged 1))) = true := by
    decide +kernel
  obtain ⟨s, hs, hp⟩ := (Option.any_eq_true _ _).mp hrun
  rw [decide_eq_true_eq, toOption_eq_some] at hp
  have hstep : s.step (.purgeExpired { year := 2026, month := 9, day := 1 } .none) =
      (.ok (.purged 1), (s.step (.purgeExpired { year := 2026, month := 9, day := 1 } .none)).2) :=
    Prod.ext hp rfl
  obtain ⟨head, hbefore, hafter, -⟩ := purge_preserves_head sampleOps s _ hs _ _ _ hstep
  exact ⟨s, _, head, hs, hstep, hbefore, (hafter [] _ rfl rfl).1⟩

end Sample

end C3RSpec.Telemetry
