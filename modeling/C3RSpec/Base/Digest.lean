import C3RSpec.Base.JsonParse

/-!
# Hexadecimal digests

Library `Base`. `hashlib.sha256` and `hmac` are parameters with the shape of their output.
Their collision resistance is an assumption that a result states where it uses it: either
injectivity, or 64 hexadecimal digits, never both.
-/

namespace C3RSpec.Base

/-- `sha256(…).hexdigest()` and `hmac.new(key, …, sha256).hexdigest()`. -/
class Digest where
  sha256Hex : ByteArray → Text
  hmacSha256Hex : ByteArray → ByteArray → Text
  isHex_sha256Hex : ∀ bytes, (sha256Hex bytes).all isHexChar = true
  isHex_hmacSha256Hex : ∀ key bytes, (hmacSha256Hex key bytes).all isHexChar = true

/-- `hmac.compare_digest` on two `str` arguments, which must be ASCII. -/
def compareDigest (a b : Text) : Except PyError Bool :=
  if a.isAscii && b.isAscii then .ok (decide (a = b))
  else .error ⟨.typeError, "comparing strings with non-ASCII characters is not supported"⟩

/-- Equal ASCII texts are the only ones that compare equal. -/
theorem compareDigest_eq_true {a b : Text} (h : compareDigest a b = .ok true) : a = b := by
  unfold compareDigest at h
  split at h
  · exact of_decide_eq_true (Except.ok.inj h)
  · cases h

/-- A hexadecimal text compares equal to itself. -/
theorem compareDigest_self {a : Text} (h : a.all isHexChar = true) :
    compareDigest a a = .ok true := by
  simp [compareDigest, isAscii_of_hex h]

/-! ### An injective digest -/

private def hexByte (b : UInt8) : Text := [hexDigit (b.toNat / 16), hexDigit b.toNat]

/-- The bytes in hexadecimal. -/
def hexBytes (bytes : ByteArray) : Text := bytes.data.toList.flatMap hexByte

private theorem isHexChar_hexDigit (d : Nat) : isHexChar (hexDigit d) = true := by
  unfold hexDigit
  split
  · next h =>
    simp only [isHexChar, Bool.or_eq_true, Bool.and_eq_true, decide_eq_true_eq]
    omega
  · next h =>
    simp only [isHexChar, Bool.or_eq_true, Bool.and_eq_true, decide_eq_true_eq]
    omega

private theorem isHex_hexBytes (bytes : ByteArray) : (hexBytes bytes).all isHexChar = true := by
  rw [hexBytes, List.all_flatMap, List.all_eq_true]
  intro b _
  simp [hexByte, isHexChar_hexDigit]

private theorem hexDigit_inj {a b : Nat} (h : hexDigit a = hexDigit b) : a % 16 = b % 16 := by
  have hv := congrArg Fin.val h
  unfold hexDigit at hv
  split at hv <;> split at hv <;> simp only at hv <;> omega

private theorem hexByte_inj {a b : UInt8} (h : hexByte a = hexByte b) : a = b := by
  simp only [hexByte, List.cons.injEq, and_true] at h
  have h1 := hexDigit_inj h.1
  have h2 := hexDigit_inj h.2
  have ha := a.toNat_lt
  have hb := b.toNat_lt
  exact UInt8.toNat_inj.mp (by omega)

private theorem flatMap_hexByte_inj {as bs : List UInt8}
    (h : as.flatMap hexByte = bs.flatMap hexByte) : as = bs := by
  induction as generalizing bs with
  | nil =>
    cases bs with
    | nil => rfl
    | cons b bs => simp [hexByte] at h
  | cons a as ih =>
    cases bs with
    | nil => simp [hexByte] at h
    | cons b bs =>
      rw [List.flatMap_cons, List.flatMap_cons] at h
      obtain ⟨hab, ht⟩ := List.append_inj h (by simp [hexByte])
      rw [hexByte_inj hab, ih ht]

/-- Bytes are recovered from their hexadecimal text. -/
theorem hexBytes_injective : Function.Injective hexBytes := fun a b h ↦ by
  have hl := flatMap_hexByte_inj h
  exact ByteArray.ext (Array.toList_inj.mp hl)

private def pairsFromHex : Text → Option (List UInt8)
  | [] => some []
  | [_] => none
  | a :: b :: t => do
    let high ← hexValue? a
    let low ← hexValue? b
    let rest ← pairsFromHex t
    some (UInt8.ofNat (high * 16 + low) :: rest)

/-- `bytes.fromhex` on a text without blanks. -/
def bytesFromHex (t : Text) : Except PyError ByteArray :=
  match pairsFromHex t with
  | some bytes => .ok ⟨⟨bytes⟩⟩
  | none => .error (valueError "non-hexadecimal number found in fromhex() arg")

private theorem pairsFromHex_flatMap (bs : List UInt8) :
    pairsFromHex (bs.flatMap hexByte) = some bs := by
  induction bs with
  | nil => rfl
  | cons b bs ih =>
    have hb := b.toNat_lt
    have hv : UInt8.ofNat (b.toNat / 16 % 16 * 16 + b.toNat % 16) = b := by
      rw [show b.toNat / 16 % 16 * 16 + b.toNat % 16 = b.toNat by omega]
      exact UInt8.ofNat_toNat
    rw [List.flatMap_cons, hexByte, List.cons_append, List.singleton_append, pairsFromHex,
      hexValue?_hexDigit, hexValue?_hexDigit, ih]
    exact congrArg (fun x ↦ some (x :: bs)) hv

/-- `bytes.fromhex(b.hex())`. -/
theorem bytesFromHex_hexBytes (bytes : ByteArray) : bytesFromHex (hexBytes bytes) = .ok bytes := by
  rw [bytesFromHex, hexBytes, pairsFromHex_flatMap]

/-- The message in hexadecimal stands for its digest: no two messages collide. -/
@[reducible] def Digest.transparent : Digest where
  sha256Hex := hexBytes
  hmacSha256Hex _ := hexBytes
  isHex_sha256Hex := isHex_hexBytes
  isHex_hmacSha256Hex _ := isHex_hexBytes

/-! ### A digest of 64 digits -/

/-- The lowest `width` hexadecimal digits of a number. -/
def hexText : Nat → Nat → Text
  | 0, _ => []
  | w + 1, n => hexDigit (n / 16 ^ w) :: hexText w n

private theorem isHex_hexText (w n : Nat) : (hexText w n).all isHexChar = true := by
  induction w with
  | zero => rfl
  | succ w ih => rw [hexText, List.all_cons, ih, isHexChar_hexDigit, Bool.and_true]

private theorem length_hexText (w n : Nat) : (hexText w n).length = w := by
  induction w with
  | zero => rfl
  | succ w ih => rw [hexText, List.length_cons, ih]

/-- A polynomial in the bytes, to fold a message into a number. -/
def rollingValue (start : Nat) (bytes : ByteArray) : Nat :=
  bytes.data.toList.foldl (fun acc b ↦ acc * 257 + b.toNat + 1) start

/-- A rolling checksum stands for the digest: always 64 hexadecimal digits. -/
@[reducible] def Digest.rolling : Digest where
  sha256Hex bytes := hexText 64 (rollingValue 7 bytes)
  hmacSha256Hex key bytes := hexText 64 (rollingValue (rollingValue 11 key) bytes)
  isHex_sha256Hex _ := isHex_hexText _ _
  isHex_hmacSha256Hex _ _ := isHex_hexText _ _

/-- The rolling digest has the length of a SHA-256 digest. -/
theorem length_rolling (bytes : ByteArray) : (Digest.rolling.sha256Hex bytes).length = 64 :=
  length_hexText _ _

end C3RSpec.Base
