import CashWallet.Bytes.Digits
import CashWallet.Curve.Secp256k1
import CashWallet.Proofs.Curve.Modulus

/-!
# `CashWallet/Proofs/Curve/Form.lean` — the forms in which a key is read

A key is written in two forms: 33 bytes, with the parity of the second coordinate in the tag, or 65
bytes, with the second coordinate itself. Both are read back, but reading takes one form more, that
of 33 bytes with the tag `05`, which has no parity and means the even one: **a string is read as a
key exactly when it is one of these three forms of it** (`PublicKey.ofBytes?_eq_ok_iff`). The third
has a hash that is not among the two of the key.

Where the second coordinate is not given it is a square root, found by a power because the modulus
leaves three when divided by four. That this finds a root whenever there is one, and that the other
root has the other parity, is what makes the parity enough (`Curve.lift?_eq_some_iff`).

The root law is stated for any prime of that kind (`Curve.sq_root`), with the remainder as a
hypothesis, and so is the law on two numbers with one square (`Curve.eq_or_add_eq`). Only where the
two meet the curve is its prime put in, which is then a constant of 256 bits that nothing has to
evaluate.

The reader looks at the length first and at the tag afterwards, and the proof does the same: one
lemma for each length (`Curve.readPoint_short`, `Curve.readPoint_long`), and the three forms from
these.
-/

set_option autoImplicit false

namespace CashWallet

namespace Curve

/-! ## Points and roots -/

/-- The equation of the curve, read in its field. -/
theorem onCurve_iff {x y : Nat} :
    onCurve x y = true ↔
      x < fieldPrime ∧ y < fieldPrime ∧
        (y : ZMod fieldPrime) ^ 2 = (curveRhs x : ZMod fieldPrime) := by
  have hlt : curveRhs x < fieldPrime := Nat.mod_lt _ prime_fieldPrime.pos
  have heq : (y : ZMod fieldPrime) ^ 2 = (curveRhs x : ZMod fieldPrime) ↔ mul y y = curveRhs x := by
    rw [sq, ← Nat.cast_mul, ZMod.natCast_eq_natCast_iff', Nat.mod_eq_of_lt hlt, mul]
  rw [heq, onCurve, Bool.and_eq_true, Bool.and_eq_true, decide_eq_true_iff, decide_eq_true_iff,
    beq_iff_eq, and_assoc]

/-- With a modulus that leaves three when divided by four, a power of a square is one of its
roots. -/
theorem sq_root {p : Nat} [Fact p.Prime] (hp : p % 4 = 3) (y : ZMod p) :
    ((y ^ 2) ^ ((p + 1) / 4)) ^ 2 = y ^ 2 := by
  have hexponent : 2 * ((p + 1) / 4 * 2) = p + 1 := by omega
  rw [← pow_mul, ← pow_mul, hexponent, pow_succ, ZMod.pow_card, sq]

/-- Two numbers with one square are the same, or add up to the modulus. -/
theorem eq_or_add_eq {p r y : Nat} [Fact p.Prime] (hr : r < p) (hy : y < p)
    (h : (r : ZMod p) ^ 2 = (y : ZMod p) ^ 2) : r = y ∨ r + y = p := by
  obtain hsame | hopposite := sq_eq_sq_iff_eq_or_eq_neg.mp h
  · rw [ZMod.natCast_eq_natCast_iff', Nat.mod_eq_of_lt hr, Nat.mod_eq_of_lt hy] at hsame
    exact .inl hsame
  · rw [eq_neg_iff_add_eq_zero, ← Nat.cast_add, ZMod.natCast_eq_zero_iff] at hopposite
    obtain ⟨k, hk⟩ := hopposite
    have hsmall : k < 2 := by
      by_contra hlarge
      have hle : p * 2 ≤ p * k := Nat.mul_le_mul_left p (by omega)
      omega
    have hcases : k = 0 ∨ k = 1 := by omega
    obtain rfl | rfl := hcases
    · omega
    · omega

/-- **The second coordinate is found whenever there is one**, by its parity. -/
theorem lift?_eq_some_iff {x y parity : Nat} (hparity : parity < 2) :
    lift? x parity = some y ↔ onCurve x y = true ∧ y % 2 = parity := by
  have hodd : fieldPrime % 2 = 1 := by decide
  simp only [lift?]
  constructor
  · intro h
    rw [Option.ite_none_right_eq_some, Option.some.injEq, Bool.and_eq_true, beq_iff_eq] at h
    obtain ⟨hguard, rfl⟩ := h
    exact hguard
  · rintro ⟨hcurve, hy⟩
    obtain ⟨hx, hlt, hsquare⟩ := onCurve_iff.mp hcurve
    have hrootLt := powMod_lt prime_fieldPrime.pos (curveRhs x) ((fieldPrime + 1) / 4)
    have hroot : (powMod fieldPrime (curveRhs x) ((fieldPrime + 1) / 4) : ZMod fieldPrime) ^ 2 =
        (y : ZMod fieldPrime) ^ 2 := by
      rw [cast_powMod _ _ (by decide), ← hsquare, sq_root (by decide)]
    have hcases := eq_or_add_eq hrootLt hlt hroot
    generalize powMod fieldPrime (curveRhs x) ((fieldPrime + 1) / 4) = root at hrootLt hcases ⊢
    -- Of a root and its negative one is even and one is odd.
    have hchosen : (if root % 2 = parity then root else fieldPrime - root) = y := by
      split
      · omega
      · omega
    rw [hchosen, hcurve, hy, beq_self_eq_true]
    rfl

end Curve

namespace PublicKey

/-- The form that says nothing about the second coordinate, and means the even one. -/
def withoutParity (k : PublicKey) : Bytes :=
  0x05 :: Bytes.ofNatBE 32 k.x

end PublicKey

namespace Curve

/-- A string writes the number that it is read as. -/
theorem ofNatBE_eq {b : Bytes} {width : Nat} (h : b.length = width) :
    Bytes.ofNatBE width (Bytes.toNatBE b) = b := by
  rw [← h, Bytes.ofNatBE_toNatBE]

/-- A coordinate is read back from its 32 bytes. -/
theorem toNatBE_coordinate {n : Nat} (h : n < fieldPrime) :
    Bytes.toNatBE (Bytes.ofNatBE 32 n) = n :=
  Bytes.toNatBE_ofNatBE 32 n (Nat.lt_trans h (by decide))

theorem map_lift?_eq_some_iff {x parity : Nat} {k : PublicKey} (hparity : parity < 2) :
    (lift? x parity).map (PublicKey.mk x) = some k ↔
      onCurve k.x k.y = true ∧ x = k.x ∧ k.y % 2 = parity := by
  rw [Option.map_eq_some_iff]
  constructor
  · rintro ⟨y, hy, rfl⟩
    obtain ⟨hcurve, hmod⟩ := (lift?_eq_some_iff hparity).mp hy
    exact ⟨hcurve, rfl, hmod⟩
  · rintro ⟨hcurve, rfl, hmod⟩
    exact ⟨k.y, (lift?_eq_some_iff hparity).mpr ⟨hcurve, hmod⟩, rfl⟩

theorem readPoint_short {tag : UInt8} {rest : Bytes} {k : PublicKey} (h : rest.length = 32) :
    readPoint (tag :: rest) = some k ↔
      onCurve k.x k.y = true ∧ Bytes.toNatBE rest = k.x ∧
        ((tag = 0x02 ∨ tag = 0x05) ∧ k.y % 2 = 0 ∨ tag = 0x03 ∧ k.y % 2 = 1) := by
  simp only [readPoint, h, if_true]
  by_cases heven : tag = 0x02 ∨ tag = 0x05
  · have hne : tag ≠ 0x03 := by
      obtain rfl | rfl := heven
      · decide
      · decide
    rw [if_pos heven, map_lift?_eq_some_iff (by decide)]
    simp only [heven, hne, true_and, false_and, or_false]
  · rw [if_neg heven]
    by_cases hodd : tag = 0x03
    · rw [if_pos hodd, map_lift?_eq_some_iff (by decide)]
      simp only [heven, false_and, false_or]
      simp only [hodd, true_and]
    · rw [if_neg hodd]
      simp only [heven, hodd, false_and, or_false, and_false, reduceCtorEq]

theorem readPoint_long {tag : UInt8} {rest : Bytes} {k : PublicKey} (h : rest.length = 64) :
    readPoint (tag :: rest) = some k ↔
      onCurve k.x k.y = true ∧ tag = 0x04 ∧
        Bytes.toNatBE (rest.take 32) = k.x ∧ Bytes.toNatBE (rest.drop 32) = k.y := by
  rw [readPoint, if_neg (by omega)]
  by_cases htag : tag = 0x04
  · rw [if_pos ⟨h, htag⟩, Option.ite_none_right_eq_some, Option.some.injEq]
    constructor
    · rintro ⟨hcurve, rfl⟩
      exact ⟨hcurve, htag, rfl, rfl⟩
    · rintro ⟨hcurve, -, hx, hy⟩
      rw [hx, hy]
      exact ⟨hcurve, rfl⟩
  · rw [if_neg fun hboth => htag hboth.2]
    simp only [htag, false_and, and_false, reduceCtorEq]

theorem length_of_readPoint {b : Bytes} {k : PublicKey} (h : readPoint b = some k) :
    ∃ tag rest, b = tag :: rest ∧ (rest.length = 32 ∨ rest.length = 64) := by
  cases b with
  | nil => cases h
  | cons tag rest =>
    refine ⟨tag, rest, rfl, ?_⟩
    by_contra hlen
    rw [not_or] at hlen
    simp only [readPoint, hlen, false_and, if_false, reduceCtorEq] at h

/-- **A point is read from three forms**: with the parity of its second coordinate, with the second
coordinate itself, and, if that is even, without anything of it. -/
theorem readPoint_eq_some_iff {b : Bytes} {k : PublicKey} :
    readPoint b = some k ↔ onCurve k.x k.y = true ∧
      (b = k.compressed ∨ b = k.uncompressed ∨ k.y % 2 = 0 ∧ b = k.withoutParity) := by
  constructor
  · intro h
    obtain ⟨tag, rest, rfl, hshort | hlong⟩ := length_of_readPoint h
    · obtain ⟨hcurve, hx, hform⟩ := (readPoint_short hshort).mp h
      have hrest : rest = Bytes.ofNatBE 32 k.x := by rw [← hx, ofNatBE_eq hshort]
      refine ⟨hcurve, ?_⟩
      obtain ⟨rfl | rfl, heven⟩ | ⟨rfl, hodd⟩ := hform
      · exact .inl (by rw [hrest, PublicKey.compressed, if_pos heven])
      · exact .inr (.inr ⟨heven, by rw [hrest, PublicKey.withoutParity]⟩)
      · exact .inl (by rw [hrest, PublicKey.compressed, if_neg (by omega)])
    · obtain ⟨hcurve, rfl, hx, hy⟩ := (readPoint_long hlong).mp h
      refine ⟨hcurve, .inr (.inl ?_)⟩
      rw [PublicKey.uncompressed, ← hx, ← hy, ofNatBE_eq (by rw [List.length_take, hlong]; rfl),
        ofNatBE_eq (by rw [List.length_drop, hlong]), List.take_append_drop]
  · rintro ⟨hcurve, hform⟩
    obtain ⟨hxlt, hylt, -⟩ := onCurve_iff.mp hcurve
    have hlen : (Bytes.ofNatBE 32 k.x).length = 32 := Bytes.length_ofNatBE 32 k.x
    obtain rfl | rfl | ⟨heven, rfl⟩ := hform
    · refine (readPoint_short hlen).mpr ⟨hcurve, toNatBE_coordinate hxlt, ?_⟩
      by_cases heven : k.y % 2 = 0
      · rw [if_pos heven]
        exact .inl ⟨.inl rfl, heven⟩
      · rw [if_neg heven]
        exact .inr ⟨rfl, by omega⟩
    · refine (readPoint_long ?_).mpr ⟨hcurve, rfl, ?_, ?_⟩
      · rw [List.length_append, hlen, Bytes.length_ofNatBE]
      · rw [List.take_left' hlen, toNatBE_coordinate hxlt]
      · rw [List.drop_left' hlen, toNatBE_coordinate hylt]
    · exact (readPoint_short hlen).mpr ⟨hcurve, toNatBE_coordinate hxlt, .inl ⟨.inr rfl, heven⟩⟩

end Curve

namespace PublicKey

open Curve

/-- A key is read from the three forms of a point on the curve, and from nothing else. -/
theorem ofBytes?_eq_ok_iff {b : Bytes} {k : PublicKey} :
    ofBytes? b = .ok k ↔ onCurve k.x k.y = true ∧
      (b = k.compressed ∨ b = k.uncompressed ∨ k.y % 2 = 0 ∧ b = k.withoutParity) := by
  rw [← readPoint_eq_some_iff]
  cases b with
  | nil => simp only [ofBytes?, readPoint, List.isEmpty_nil, if_true, reduceCtorEq]
  | cons tag rest =>
    rw [ofBytes?, List.isEmpty_cons, if_neg Bool.false_ne_true]
    cases hread : readPoint (tag :: rest) with
    | none =>
      have hpoint : KeySuite.readPoint (tag :: rest) = (none : Option PublicKey) := hread
      simp only [hpoint, reduceCtorEq]
    | some k' =>
      have hpoint : KeySuite.readPoint (tag :: rest) = some k' := hread
      rw [hpoint, Except.ok.injEq, Option.some.injEq]

theorem head?_compressed (k : PublicKey) : k.compressed.head? ≠ some 0x05 := by
  unfold compressed
  split
  · rw [List.head?_cons]
    decide
  · rw [List.head?_cons]
    decide

theorem head?_uncompressed (k : PublicKey) : k.uncompressed.head? ≠ some 0x05 := by
  rw [uncompressed, List.head?_cons]
  decide

/-- **A key is read back from the two forms that are written, and any other form it is read from has
the tag `05`**: the one without a parity, of a key whose second coordinate is even. The bytes that
are read with another tag have one of the two hashes of the key. -/
theorem ofBytes?_forms (b : Bytes) (k : PublicKey) :
    (onCurve k.x k.y = true → ofBytes? k.compressed = .ok k ∧ ofBytes? k.uncompressed = .ok k) ∧
      (ofBytes? b = .ok k ↔ onCurve k.x k.y = true ∧
        (b = k.compressed ∨ b = k.uncompressed ∨ k.y % 2 = 0 ∧ b = k.withoutParity)) ∧
      (ofBytes? b = .ok k →
        ((b = k.compressed ∨ b = k.uncompressed) ↔ b.head? ≠ some 0x05) ∧
          (b.head? ≠ some 0x05 →
            Hash160.ofContent b = k.hash160 ∨ Hash160.ofContent b = .ofContent k.uncompressed)) := by
  refine ⟨fun hcurve => ⟨?_, ?_⟩, ofBytes?_eq_ok_iff, fun h => ?_⟩
  · exact ofBytes?_eq_ok_iff.mpr ⟨hcurve, .inl rfl⟩
  · exact ofBytes?_eq_ok_iff.mpr ⟨hcurve, .inr (.inl rfl)⟩
  obtain ⟨-, rfl | rfl | ⟨-, rfl⟩⟩ := ofBytes?_eq_ok_iff.mp h
  · exact ⟨iff_of_true (.inl rfl) k.head?_compressed, fun _ => .inl rfl⟩
  · exact ⟨iff_of_true (.inr rfl) k.head?_uncompressed, fun _ => .inr rfl⟩
  · refine ⟨iff_of_false ?_ fun htag => htag rfl, fun htag => absurd rfl htag⟩
    rintro (hsame | hsame)
    · exact k.head?_compressed (by rw [← hsame]; rfl)
    · cases hsame

/-- The base point of the curve as a key. -/
def basePoint : PublicKey :=
  ⟨Point.base.x, Point.base.y⟩

theorem ofBytes?_forms_basePoint :
    onCurve basePoint.x basePoint.y = true ∧ ofBytes? basePoint.compressed = .ok basePoint ∧
      ofBytes? basePoint.withoutParity = .ok basePoint ∧
      ¬ (basePoint.withoutParity = basePoint.compressed ∨
        basePoint.withoutParity = basePoint.uncompressed) := by
  have hcurve : onCurve basePoint.x basePoint.y = true := by decide +kernel
  have hread : ofBytes? basePoint.withoutParity = .ok basePoint := by decide +kernel
  obtain ⟨hback, -, hforms⟩ := ofBytes?_forms basePoint.withoutParity basePoint
  exact ⟨hcurve, (hback hcurve).1, hread, fun hsame => (hforms hread).1.mp hsame rfl⟩

end PublicKey

end CashWallet
