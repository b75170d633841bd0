import CashWallet.Bytes
import Mathlib

/-!
# `CashWallet/Bytes/Digits.lean` — numbers and their digits of a fixed width

**A number and its fixed-width form determine each other.** Writing loses nothing of a number that
fits (`toNatLE_ofNatLE`), and a string is written back as it was from the number it writes
(`ofNatLE_toNatLE`). So for every width the two functions are inverse to each other, between the
numbers below a power of 256 and the strings of that length.

Both proofs are inductions that follow the writer, one byte a step. The big-endian forms are the
reversals of the little-endian ones, and so are their laws: no induction is done twice.

Reading a fixed-width number off the front of a string, and every length and count of this library,
rests on these four facts.
-/

set_option autoImplicit false

namespace CashWallet.Bytes

/-! ## Little-endian numbers -/

/-- A string of so many bytes writes a number that fits into them. -/
theorem toNatLE_lt (b : Bytes) : toNatLE b < 256 ^ b.length := by
  induction b with
  | nil => simp [toNatLE]
  | cons x rest ih =>
    have hx := x.toNat_lt
    simp only [toNatLE, List.length_cons, Nat.pow_succ]
    omega

/-- A number that fits the width is read back from its digits. -/
theorem toNatLE_ofNatLE (width value : Nat) (h : value < 256 ^ width) :
    toNatLE (ofNatLE width value) = value := by
  induction width generalizing value with
  | zero => simp at h; simp [ofNatLE, toNatLE, h]
  | succ width ih =>
    have hq : value / 256 < 256 ^ width := by
      rw [Nat.div_lt_iff_lt_mul (by decide)]; simpa [Nat.pow_succ] using h
    simp only [ofNatLE, toNatLE, ih _ hq, UInt8.toNat_ofNat']
    omega

/-- A byte string is the digits of the number it writes. -/
theorem ofNatLE_toNatLE (b : Bytes) : ofNatLE b.length (toNatLE b) = b := by
  induction b with
  | nil => rfl
  | cons x rest ih =>
    have hx := x.toNat_lt
    have hd : (x.toNat + 256 * toNatLE rest) / 256 = toNatLE rest := by omega
    have hm : UInt8.ofNat (x.toNat + 256 * toNatLE rest) = x := by
      apply UInt8.toNat_inj.1
      simp only [UInt8.toNat_ofNat']
      omega
    simp only [List.length_cons, ofNatLE, toNatLE, hd, hm, ih]

/-! ## Big-endian numbers -/

theorem toNatBE_lt (b : Bytes) : toNatBE b < 256 ^ b.length := by
  simpa [toNatBE] using toNatLE_lt b.reverse

/-- A number that fits the width is read back from its digits, the other way round too. -/
theorem toNatBE_ofNatBE (width value : Nat) (h : value < 256 ^ width) :
    toNatBE (ofNatBE width value) = value := by
  simp [toNatBE, ofNatBE, toNatLE_ofNatLE width value h]

theorem ofNatBE_toNatBE (b : Bytes) : ofNatBE b.length (toNatBE b) = b := by
  have h := ofNatLE_toNatLE b.reverse
  simp only [List.length_reverse] at h
  simp [ofNatBE, toNatBE, h]

end CashWallet.Bytes
