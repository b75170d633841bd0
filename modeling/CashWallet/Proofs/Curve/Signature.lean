import CashWallet.Bytes.Digits
import CashWallet.Curve.Signature

/-!
# `CashWallet/Proofs/Curve/Signature.lean` — signatures and their distinguished form

Reading takes nothing but written forms, by its last step. What is left to see is that it takes all
of them: **the form of a signature is read as the signature** (`Signature.ofDer?_toDer`). The two
numbers stand where their lengths say, and a number is the same without the zeros in front that its
form leaves out.

The reader has no rules of its own on tags, lengths or zeros, so none has to be gone through here.
That a string which is read is a written form, and the only one of its signature, is the comparison
at the end of `Signature.ofDer?` and needs no proof.

The form is short, and that is why a wallet can push it with a single byte in front
(`Signature.length_toDer_le`): 72 bytes at most, and the byte of the type makes 73.
-/

set_option autoImplicit false

namespace CashWallet

/-! ## Zeros in front -/

theorem Bytes.toNatLE_append_zero (b : Bytes) : toNatLE (b ++ [0]) = toNatLE b := by
  induction b with
  | nil => rfl
  | cons x b ih =>
    show x.toNat + 256 * toNatLE (b ++ [0]) = x.toNat + 256 * toNatLE b
    rw [ih]

theorem Bytes.toNatBE_zero_cons (b : Bytes) : toNatBE (0 :: b) = toNatBE b := by
  rw [toNatBE, List.reverse_cons, toNatLE_append_zero, toNatBE]

/-- Zeros in front write nothing. -/
theorem Bytes.toNatBE_dropWhile_zero (b : Bytes) :
    toNatBE (b.dropWhile (· == 0)) = toNatBE b := by
  induction b with
  | nil => rfl
  | cons x b ih =>
    by_cases hx : x = 0
    · subst hx
      rw [List.dropWhile_cons_of_pos rfl, ih, toNatBE_zero_cons]
    · rw [List.dropWhile_cons_of_neg (by simpa using hx)]

namespace Signature

/-! ## One number -/

theorem length_integerBytes_le (n : Nat) : (integerBytes n).length ≤ 33 := by
  have hshort : ((Bytes.ofNatBE 32 n).dropWhile (· == 0)).length ≤ 32 := by
    have hsuffix := (List.dropWhile_suffix (p := (· == 0)) (l := Bytes.ofNatBE 32 n)).length_le
    rwa [Bytes.length_ofNatBE] at hsuffix
  unfold integerBytes
  -- A zero is put in front only when the highest bit of the first byte is set.
  cases hdigits : (Bytes.ofNatBE 32 n).dropWhile (· == 0) with
  | nil => decide
  | cons b rest =>
    rw [hdigits, List.length_cons] at hshort
    by_cases hb : b.toNat < 0x80
    · simp only [hb, if_true, List.length_cons]
      omega
    · simp only [hb, if_false, List.length_cons]
      omega

/-- A number is read back from its shortest form, with or without the zero that keeps it
positive. -/
theorem toNatBE_integerBytes {n : Nat} (h : n < curveOrder) :
    Bytes.toNatBE (integerBytes n) = n := by
  have hn : n < 256 ^ 32 := Nat.lt_trans h (by decide)
  have hdigits := Bytes.toNatBE_dropWhile_zero (Bytes.ofNatBE 32 n)
  rw [Bytes.toNatBE_ofNatBE 32 n hn] at hdigits
  unfold integerBytes
  cases hcut : (Bytes.ofNatBE 32 n).dropWhile (· == 0) with
  | nil =>
    rw [hcut] at hdigits
    rw [← hdigits]
    rfl
  | cons b rest =>
    rw [hcut] at hdigits
    by_cases hb : b.toNat < 0x80
    · simp only [hb, if_true]
      exact hdigits
    · simp only [hb, if_false]
      rw [Bytes.toNatBE_zero_cons]
      exact hdigits

/-! ## Two numbers -/

/-- The numbers are found where the form has them. -/
theorem numbersIn_toDer (sig : Signature) : numbersIn sig.toDer = some (sig.r, sig.s) := by
  have hlen := length_integerBytes_le sig.r
  have hsize : (UInt8.ofNat (integerBytes sig.r).length).toNat = (integerBytes sig.r).length := by
    rw [UInt8.toNat_ofNat']
    omega
  simp only [toDer, integer, List.cons_append, numbersIn, hsize, List.drop_left, List.take_left,
    toNatBE_integerBytes sig.r_range.2, toNatBE_integerBytes sig.s_range.2]

/-- **The form of a signature is read as the signature.** -/
theorem ofDer?_toDer (sig : Signature) : ofDer? sig.toDer = .ok sig := by
  have hback : ofNats? sig.r sig.s = some sig := dif_pos ⟨sig.r_range, sig.s_range⟩
  simp only [ofDer?, numbersIn_toDer, hback, if_true]

theorem length_toDer_le (sig : Signature) : sig.toDer.length ≤ 72 := by
  have hr := length_integerBytes_le sig.r
  have hs := length_integerBytes_le sig.s
  simp only [toDer, integer, List.length_cons, List.length_append]
  omega

end Signature

end CashWallet
