import C3RSpec.Telemetry.GovernedStore

/-!
# Signed ledger heads

`c3r/telemetry/ledger_anchor.py:17–80` and `c3r/telemetry/governed_store.py:203–216`. The capture
timestamp is the `isoformat` of a UTC reading, so its checks pass and are left out. Verification
of a signature is host code.
-/

namespace C3RSpec.Telemetry

open Base

/-- `LedgerHead`. -/
structure LedgerHead where
  sequence : Int
  recordHash : Text
  capturedAt : Text
  policyVersion : Text
  deriving DecidableEq

/-- `datetime.isoformat()`: microseconds only when there are any. -/
def isoformatAuto (t : DateTime) : Text :=
  if t.microsecond = 0 then t.isoformat.take 19 ++ Text.ofString "+00:00" else t.isoformat

/-- `capture_head`, with the checks of `LedgerHead`. -/
def captureHead (sequence : Int) (recordHash policyVersion : Text) (now : DateTime) :
    Except PyError LedgerHead :=
  if sequence < 0 ∨ isHash recordHash = false then .error (valueError "invalid ledger head")
  else if policyVersion = [] ∨ 64 < policyVersion.length then
    .error (valueError "invalid policy version")
  else .ok ⟨sequence, recordHash, isoformatAuto now, policyVersion⟩

/-- `asdict` of a head. -/
def LedgerHead.asdict (h : LedgerHead) : Json :=
  .obj [
    ("sequence", .int h.sequence),
    ("record_hash", .str h.recordHash),
    ("captured_at", .str h.capturedAt),
    ("policy_version", .str h.policyVersion)]

/-- `SignedLedgerAnchor`. -/
structure SignedLedgerAnchor where
  head : LedgerHead
  keyId : Text
  signatureHex : Text

/-- ASCII white space that `bytes.fromhex` skips. -/
def isHexSpace (c : CodePoint) : Bool := c == 32 || (9 ≤ c.val && c.val ≤ 13)

/-- `bytes.fromhex`; nothing where it raises `ValueError`. -/
def fromHex : Text → Option (List UInt8)
  | [] => some []
  | [c] => if isHexSpace c then some [] else none
  | c :: d :: rest =>
    if isHexSpace c then fromHex (d :: rest)
    else do
      let high ← hexValue? c
      let low ← hexValue? d
      let tail ← fromHex rest
      return UInt8.ofNat (high * 16 + low) :: tail

section Anchors

variable [Digest] [FloatText]

/-- `LedgerHead.payload`. -/
def LedgerHead.payload (h : LedgerHead) : Except PyError ByteArray := do
  let text ← dumps false true h.asdict
  text.encodeUtf8

/-- `verify_anchor`. -/
def verifyAnchor (anchor : SignedLedgerAnchor) (sequence : Int) (recordHash : Text)
    (verifier : Text → ByteArray → List UInt8 → Except PyError Bool) : Except PyError Bool :=
  if anchor.head.sequence ≠ sequence ∨ anchor.head.recordHash ≠ recordHash then .ok false
  else
    match fromHex anchor.signatureHex with
    | none => .ok false
    | some signature =>
      if signature = [] then .ok false
      else do
        let payload ← anchor.head.payload
        verifier anchor.keyId payload signature

/-- `snapshot_head` with no commit between its `SELECT`s. -/
def Db.snapshotHead (db : Db) (policyVersion : Text) (now : DateTime) :
    Except PyError LedgerHead := do
  match ← db.verifiedHead with
  | none => .error (valueError "governed trace hash chain is invalid")
  | some head => captureHead head.1 head.2 policyVersion now

end Anchors

end C3RSpec.Telemetry
