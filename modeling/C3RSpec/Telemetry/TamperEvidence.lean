import C3RSpec.Telemetry.PurgeAnchoring
import C3RSpec.Telemetry.TraceLedger

/-!
# What a head hash commits to

A record hash covers the hash before it and the canonical text, with a line break between them.
The text is on one line, so the last line break separates the two parts whatever stands in the
first, also where that is a checkpoint someone has written into the database. Without collisions
a head then fixes every record back to the start of the shorter chain.
-/

namespace C3RSpec.Telemetry

open Base

/-- The hashed columns of the retained rows. -/
def Db.records (db : Db) : List LedgerRecord := db.rows.map Row.record

section Heads

variable [Digest] [FloatText]

private theorem sealed_of_rowVerified {row : Row} (h : rowVerified row = .ok true) :
    Sealed row.previousHash row.recordHash row.canonicalJson := by
  unfold rowVerified at h
  split at h
  · cases h
  · split at h
    · cases h
    · next canonical hcanonical =>
      split at h
      · cases h
      · split at h
        · cases h
        · next hsame =>
          rw [not_not] at hsame
          obtain ⟨digest, hdigest, hd⟩ := bind_eq_ok.mp h
          refine ⟨?_, ?_⟩
          · rw [← hsame]
            exact (oneLine_dumps hcanonical).notMem_newline
          · rw [hdigest, of_decide_eq_true (Except.ok.inj hd)]

private theorem verifyRows_eq_some {start hash : Text} {rows : List Row}
    (h : verifyRows start rows = .ok (some hash)) :
    PrunedLog.Chained Row.recordHash Row.previousHash start rows ∧
      (∀ row ∈ rows, Sealed row.previousHash row.recordHash row.canonicalJson) ∧
      hash = PrunedLog.linkAfter Row.recordHash start rows := by
  induction rows generalizing start with
  | nil =>
    cases h
    exact ⟨trivial, fun _ hr ↦ (by cases hr), rfl⟩
  | cons row rest ih =>
    rw [verifyRows] at h
    split at h
    · cases h
    · next hprev =>
      rw [not_not] at hprev
      obtain ⟨verified, hv, hrest⟩ := bind_eq_ok.mp h
      cases verified with
      | false => cases hrest
      | true =>
        obtain ⟨hchain, hall, rfl⟩ := ih hrest
        refine ⟨⟨hprev, hchain⟩, fun r hr ↦ ?_, ?_⟩
        · obtain rfl | hr := List.mem_cons.mp hr
          · exact sealed_of_rowVerified hv
          · exact hall r hr
        · exact (PrunedLog.linkAfter_append Row.recordHash start [row] rest).symm

private theorem verifiedHead_eq_some {db : Db} {sequence : Int} {hash : Text}
    (h : db.verifiedHead = .ok (some (sequence, hash))) :
    ∃ start, PrunedLog.Chained Row.recordHash Row.previousHash start db.rows ∧
      (∀ row ∈ db.rows, Sealed row.previousHash row.recordHash row.canonicalJson) ∧
      hash = PrunedLog.linkAfter Row.recordHash start db.rows := by
  unfold Db.verifiedHead verifiedHead at h
  split at h
  · cases h
  · next md hmd =>
    split at h
    · cases h
    · split at h
      · cases h
      · obtain ⟨previous, hrows, hp⟩ := bind_eq_ok.mp h
        cases previous with
        | none => cases hp
        | some head =>
          obtain rfl : head = hash := (Prod.mk.inj (Option.some.inj (Except.ok.inj hp))).2
          exact ⟨md.checkpointHash, verifyRows_eq_some hrows⟩

/-- Two verified ledgers with the same last hash hold the same records, and of two verified
databases with the same head the rows of one are the last rows of the other. -/
theorem head_commits (hinj : Function.Injective Digest.sha256Hex)
    (hgenesis : ∀ bytes, Digest.sha256Hex bytes ≠ genesis) :
    (∀ r s : List LedgerRecord, verifyLedger r = .ok true → verifyLedger s = .ok true →
      lastHash r = lastHash s → r = s) ∧
    ∀ (a b : Db) (m n : Int) (hash : Text), a.verifiedHead = .ok (some (m, hash)) →
      b.verifiedHead = .ok (some (n, hash)) →
      a.records <:+ b.records ∨ b.records <:+ a.records := by
  constructor
  · intro r s hr hs hlast
    obtain ⟨hchainR, hsealedR⟩ := verifyRecords_eq_true hr
    obtain ⟨hchainS, hsealedS⟩ := verifyRecords_eq_true hs
    have hstart : ∀ {records : List LedgerRecord}, (∀ x ∈ records,
        Sealed x.previousHash x.recordHash x.canonicalJson) →
        ∀ x ∈ records, x.recordHash ≠ genesis := by
      intro records hall x hx
      obtain ⟨bytes, hbytes⟩ := (hall x hx).exists_digest
      rw [← hbytes]
      exact hgenesis bytes
    refine PrunedLog.eq_of_linkAfter_eq LedgerRecord.recordHash LedgerRecord.previousHash ?_
      (hstart hsealedR) (hstart hsealedS) hchainR hchainS hlast
    intro x hx y hy hxy
    obtain ⟨hprev, hjson⟩ := Sealed.inj hinj (hsealedR x hx) (hxy ▸ hsealedS y hy)
    cases x
    cases y
    simp only [LedgerRecord.mk.injEq]
    exact ⟨hprev, hxy, hjson⟩
  · intro a b m n hash ha hb
    obtain ⟨startA, hchainA, hsealedA, hheadA⟩ := verifiedHead_eq_some ha
    obtain ⟨startB, hchainB, hsealedB, hheadB⟩ := verifiedHead_eq_some hb
    refine PrunedLog.suffix_of_linkAfter_eq Row.recordHash Row.previousHash ?_ hchainA hchainB
      (hheadA.symm.trans hheadB)
    intro x hx y hy hxy
    obtain ⟨hprev, hjson⟩ := Sealed.inj hinj (hsealedA x hx) (hxy ▸ hsealedB y hy)
    refine ⟨?_, hprev⟩
    rw [Row.record, Row.record, hprev, hxy, hjson]

end Heads

/-- The message in hexadecimal after a one: no two messages collide and none gives the genesis
hash. -/
@[reducible] def markedDigest : Digest where
  sha256Hex bytes := 49 :: hexBytes bytes
  hmacSha256Hex key bytes := Digest.transparent.hmacSha256Hex key bytes
  isHex_sha256Hex bytes := by
    have h : (hexBytes bytes).all isHexChar = true := Digest.transparent.isHex_sha256Hex bytes
    rw [List.all_cons, h]
    rfl
  isHex_hmacSha256Hex := Digest.transparent.isHex_hmacSha256Hex

section Sample

attribute [local instance] markedDigest FloatText.fraction

private theorem null_verified :
    ∃ hash, verifyLedger [⟨genesis, hash, "null"⟩] = .ok true := by
  obtain ⟨bytes, hbytes⟩ := Text.exists_encodeUtf8_iff.mpr (Text.isScalar_of_isAscii
    (t := genesis ++ 10 :: Text.ofString "null") (by decide))
  have hhash : recordHash genesis "null" = .ok (Digest.sha256Hex bytes) := by
    rw [recordHash, hbytes]
    rfl
  have hnull : dumps false false .null = .ok (Text.ofString "null") := rfl
  refine ⟨Digest.sha256Hex bytes, ?_⟩
  rw [verifyLedger, verifyRecords, recordVerified_of_dumps (j := .null) trivial rfl hnull hhash]
  rfl

/-- A store of two records, and the same store after a purge that dropped the first of them. -/
theorem head_commits_purged :
    (∃ r s : List LedgerRecord, r ≠ [] ∧ verifyLedger r = .ok true ∧ verifyLedger s = .ok true ∧
      r = s) ∧
    ∃ a b : Db, a.rows.length = 2 ∧ b.rows.length = 1 ∧
      (∃ hash, a.verifiedHead = .ok (some (2, hash)) ∧ b.verifiedHead = .ok (some (2, hash))) ∧
      (a.records <:+ b.records ∨ b.records <:+ a.records) := by
  have hinj : Function.Injective Digest.sha256Hex := fun a b h ↦
    hexBytes_injective (List.cons.inj h).2
  have hgenesis : ∀ bytes, Digest.sha256Hex bytes ≠ genesis := fun bytes h ↦
    absurd (List.cons.inj h).1 (by decide)
  obtain ⟨hash, hverified⟩ := null_verified
  have hledgers := (head_commits hinj hgenesis).1 _ _ hverified hverified rfl
  refine ⟨⟨_, _, List.cons_ne_nil _ _, hverified, hverified, hledgers⟩, ?_⟩
  have hrun : (runAll Store.next Store.initial collectedOps).any (fun s ↦
      decide (s.db.rows.length = 2) && decide (s.db.sequence = some 2) && s.db.metadata.isSome &&
      decide ((s.step (.purgeExpired { year := 2026, month := 9, day := 1 } .none)).1.toOption =
        some (.purged 1)) &&
      decide ((s.step (.purgeExpired { year := 2026, month := 9, day := 1 }
        .none)).2.db.rows.length = 1)) = true := by
    decide +kernel
  obtain ⟨s, hs, hp⟩ := (Option.any_eq_true _ _).mp hrun
  simp only [Bool.and_eq_true, decide_eq_true_eq, toOption_eq_some] at hp
  obtain ⟨⟨⟨⟨htwo, hseq⟩, hmd⟩, hpurged⟩, hone⟩ := hp
  -- the purge appends nothing, so both databases verify with the head of the ledger
  obtain ⟨l, h⟩ := Store.exists_ledger hs
  obtain ⟨l', h', hm⟩ := h.step (.purgeExpired { year := 2026, month := 9, day := 1 } .none)
  obtain ⟨hlen, hhash⟩ := hm.head_of_notAppended fun record he ↦ by
    rw [hpurged] at he
    cases he
  obtain ⟨md, hmd⟩ := Option.isSome_iff_exists.mp hmd
  obtain ⟨md', hmd'⟩ := Option.isSome_iff_exists.mp (Store.metadata_step
    (Option.isSome_iff_exists.mpr ⟨md, hmd⟩)
    (.purgeExpired { year := 2026, month := 9, day := 1 } .none))
  have hshows := h.shows_of_metadata hmd
  have hcount : (l.history.length : Int) = 2 := by
    rw [← hshows.sequence, hseq]
    rfl
  have hheadA := hshows.verifiedHead h.sound
  have hheadB := (h'.shows_of_metadata hmd').verifiedHead h'.sound
  rw [hcount] at hheadA
  rw [hlen, hhash, hcount] at hheadB
  exact ⟨s.db, _, htwo, hone, ⟨_, hheadA, hheadB⟩,
    (head_commits hinj hgenesis).2 _ _ _ _ _ hheadA hheadB⟩

end Sample

end C3RSpec.Telemetry
