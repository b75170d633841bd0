import CashWallet.Wire.Hash256

/-!
# `CashWallet/Proofs/Text/Hex.lean` — digits are read back

**The digits of a byte string are read as the byte string** (`Hex.decode_encode`). Reading goes
through the UTF-8 bytes of the text; every digit is one such byte, so the pairs of digit bytes stand
where the pairs of digits stood.

Writing has its digits as characters and reading looks for them among bytes, and the sixteen digits
are gone through once for each side. What is left is an induction along the bytes, at any position:
the position is where an error would be reported, and there is none.

An identifier is shown with all of its digits and in the other order of its bytes. So nothing is
filled in when it is read, and turning it around twice is all that has to be seen
(`Hash256.parse_display`).
-/

set_option autoImplicit false

namespace CashWallet.Hex

/-- The byte of a digit in lower case. -/
def digitByte (n : Nat) : UInt8 :=
  UInt8.ofNat (digitChar n).toNat

theorem utf8EncodeChar_digitChar :
    ∀ n < 16, String.utf8EncodeChar (digitChar n) = [digitByte n] := by
  decide

theorem digitValue?_digitByte : ∀ n < 16, digitValue? (digitByte n) = some n := by
  decide

/-- The bytes of the digits of a byte string. -/
def digitBytes (b : Bytes) : Bytes :=
  b.flatMap fun x => [digitByte (x.toNat / 16), digitByte (x.toNat % 16)]

theorem length_digitBytes (b : Bytes) : (digitBytes b).length = 2 * b.length := by
  induction b with
  | nil => rfl
  | cons x b ih =>
    rw [digitBytes, List.flatMap_cons, List.length_append, ← digitBytes, ih, List.length_cons]
    simp only [List.length_cons, List.length_nil]
    omega

theorem utf8_encode (b : Bytes) : Text.utf8 (encode b) = digitBytes b := by
  rw [Text.utf8, encode, String.toList_ofList, encodeChars, digitBytes]
  induction b with
  | nil => rfl
  | cons x b ih =>
    have hx := x.toNat_lt
    have hhigh := utf8EncodeChar_digitChar (x.toNat / 16) (by omega)
    have hlow := utf8EncodeChar_digitChar (x.toNat % 16) (by omega)
    rw [List.flatMap_cons, List.flatMap_append, ih, List.flatMap_cons]
    simp only [List.flatMap_cons, List.flatMap_nil, hhigh, hlow, List.append_nil,
      List.cons_append, List.nil_append]

/-- **One pair** is read in front of the pairs that are read behind it. -/
theorem decodePairs_pair {position h l : Nat} {high low : UInt8} {rest tail : Bytes}
    (hhigh : digitValue? high = some h) (hlow : digitValue? low = some l)
    (hrest : decodePairs (position + 2) rest = .ok tail) :
    decodePairs position (high :: low :: rest) = .ok (UInt8.ofNat (16 * h + l) :: tail) := by
  simp only [decodePairs, digit, hhigh, hlow, hrest]
  rfl

/-- Wherever the pairs of a byte string begin, they are read as the byte string. -/
theorem decodePairs_digitBytes (b : Bytes) (position : Nat) :
    decodePairs position (digitBytes b) = .ok b := by
  induction b generalizing position with
  | nil => rfl
  | cons x b ih =>
    have hx := x.toNat_lt
    have hhigh := digitValue?_digitByte (x.toNat / 16) (by omega)
    have hlow := digitValue?_digitByte (x.toNat % 16) (by omega)
    have hpair := decodePairs_pair hhigh hlow (ih (position + 2))
    rwa [Nat.div_add_mod, UInt8.ofNat_toNat] at hpair

/-- **The digits of a byte string are read as the byte string.** -/
theorem decode_encode (b : Bytes) : decode (encode b) = .ok b := by
  have heven : (digitBytes b).length % 2 ≠ 1 := by
    rw [length_digitBytes]
    omega
  rw [decode, utf8_encode, decodeBytes, if_neg heven, decodePairs_digitBytes]

end CashWallet.Hex

namespace CashWallet.Hash256

/-- **The text of an identifier is read as the identifier.** -/
theorem parse_display (h : Hash256) : parse h.display = .ok h := by
  have hreverse : h.bytes.reverse.length = 32 := by rw [List.length_reverse, h.length_bytes]
  have hlength : (Hex.digitBytes h.bytes.reverse).length = 64 := by
    rw [Hex.length_digitBytes, hreverse]
  have hdecode : Hex.decodeBytes (Hex.digitBytes h.bytes.reverse) = .ok h.bytes.reverse := by
    rw [← Hex.utf8_encode]
    exact Hex.decode_encode h.bytes.reverse
  have hpad : Bytes.padLeft 32 h.bytes.reverse = h.bytes.reverse := by
    rw [Bytes.padLeft, hreverse]
    rfl
  simp only [parse, display, Hex.utf8_encode, hlength]
  rw [if_neg (by decide), if_neg (by decide), hdecode]
  simp only [hpad, List.reverse_reverse]
  exact dif_pos h.length_bytes

end CashWallet.Hash256
