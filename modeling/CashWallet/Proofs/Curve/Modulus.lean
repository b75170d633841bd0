import CashWallet.Curve.Point
import Mathlib.NumberTheory.LucasPrimality
import Mathlib.Tactic.NormNum.Prime

/-!
# `CashWallet/Proofs/Curve/Modulus.lean` — the modulus of the coordinates is prime

Coordinates are numbers below `fieldPrime`, and all that is known of them needs **that this number
is a prime** (`prime_fieldPrime`): a root is a root of one number and its negative only, and powers
are periodic.

It has 256 bits and is not looked through for divisors. A prime is known by a number whose powers
run through all of its remainders, which is seen from a few of them when the factors of the number
before it are known (`IsGenerator`). These are primes of the same kind, down to some that are small.
The powers are found with the same squarings as everywhere else (`powMod_modEq`).

So the proof is a short chain of certificates. Each certificate is a modulus, a base, and the
factors of the number before the modulus, and checking one is a handful of powers modulo it, which
the kernel can evaluate. What the certificates show is a theorem of Mathlib on the order of a number
(`lucas_primality`), not of this library; here it is only brought into a form that can be decided.
-/

set_option autoImplicit false

namespace CashWallet.Curve

/-! ## Powers -/

/-- What is in hand is squared for every bit to come, and takes up the powers of these bits. -/
theorem powBits_modEq (modulus base exponent : Nat) : ∀ count acc : Nat,
    powBits modulus base exponent count acc ≡
      acc ^ 2 ^ count * base ^ (exponent % 2 ^ count) [MOD modulus]
  | 0, acc => by
    rw [powBits, pow_zero, pow_one, Nat.mod_one, pow_zero, mul_one]
  | count + 1, acc => by
    have hbit : exponent % 2 ^ (count + 1) =
        exponent % 2 ^ count + 2 ^ count * (exponent.testBit count).toNat := by
      rw [Nat.mod_pow_succ, Nat.toNat_testBit]
    have hsquare : acc ^ 2 ^ (count + 1) = (acc * acc) ^ 2 ^ count := by
      rw [pow_succ, mul_comm, pow_mul, sq]
    have hmod : acc * acc % modulus ≡ acc * acc [MOD modulus] := Nat.mod_modEq _ _
    rw [powBits, hbit, hsquare, pow_add, pow_mul]
    refine (powBits_modEq modulus base exponent count _).trans ?_
    cases exponent.testBit count with
    | false =>
      rw [if_neg Bool.false_ne_true, Bool.toNat_false, pow_zero, mul_one]
      exact (hmod.pow _).mul_right _
    | true =>
      rw [if_pos rfl, Bool.toNat_true, pow_one, mul_comm (base ^ _), ← mul_assoc, ← mul_pow]
      exact (((Nat.mod_modEq _ _).trans (hmod.mul_right base)).pow _).mul_right _

theorem powBits_lt {modulus : Nat} (h : 0 < modulus) (base exponent : Nat) :
    ∀ {count acc : Nat}, acc < modulus → powBits modulus base exponent count acc < modulus
  | 0, _, hacc => hacc
  | count + 1, acc, _ => by
    rw [powBits]
    refine powBits_lt h base exponent ?_
    split
    · exact Nat.mod_lt _ h
    · exact Nat.mod_lt _ h

/-- A power is a remainder. -/
theorem powMod_lt {modulus : Nat} (h : 0 < modulus) (base exponent : Nat) :
    powMod modulus base exponent < modulus :=
  powBits_lt h _ _ (Nat.mod_lt _ h)

theorem powBits_one_modEq (modulus base : Nat) {exponent count : Nat} (h : exponent < 2 ^ count) :
    powBits modulus (base % modulus) exponent count (1 % modulus) ≡
      base ^ exponent [MOD modulus] := by
  have hone : (1 % modulus) ^ 2 ^ count ≡ 1 ^ 2 ^ count [MOD modulus] := (Nat.mod_modEq _ _).pow _
  have hbase : (base % modulus) ^ exponent ≡ base ^ exponent [MOD modulus] :=
    (Nat.mod_modEq _ _).pow _
  have hpower := powBits_modEq modulus (base % modulus) exponent count (1 % modulus)
  have hboth := hone.mul hbase
  rw [one_pow, one_mul] at hboth
  rw [Nat.mod_eq_of_lt h] at hpower
  exact hpower.trans hboth

/-- **Powers are found as long as the exponent has at most 256 bits.** -/
theorem powMod_modEq (modulus base : Nat) {exponent : Nat} (h : exponent < 2 ^ 256) :
    powMod modulus base exponent ≡ base ^ exponent [MOD modulus] :=
  powBits_one_modEq modulus base h

theorem cast_powMod (modulus base : Nat) {exponent : Nat} (h : exponent < 2 ^ 256) :
    (powMod modulus base exponent : ZMod modulus) = (base : ZMod modulus) ^ exponent := by
  rw [(ZMod.natCast_eq_natCast_iff _ _ _).mpr (powMod_modEq modulus base h), Nat.cast_pow]

/-! ## Primes -/

/-- The powers of the number run through as many remainders as the modulus has besides zero, given
the factors of that many. -/
def IsGenerator (modulus base : Nat) (factors : List Nat) : Prop :=
  (1 < modulus ∧ modulus ≤ 2 ^ 256) ∧ factors.prod = modulus - 1 ∧
    powMod modulus base (modulus - 1) = 1 ∧
      ∀ q ∈ factors, powMod modulus base ((modulus - 1) / q) ≠ 1

instance (modulus base : Nat) (factors : List Nat) :
    Decidable (IsGenerator modulus base factors) :=
  inferInstanceAs (Decidable (_ ∧ _ ∧ _ ∧ _))

/-- A modulus with such a number is a prime, if the factors are. -/
theorem prime_of_isGenerator {modulus : Nat} (base : Nat) (factors : List Nat)
    (hfactors : ∀ q ∈ factors, q.Prime) (h : IsGenerator modulus base factors) :
    modulus.Prime := by
  obtain ⟨⟨hpos, hbits⟩, hprod, hone, hproper⟩ := h
  refine lucas_primality modulus (base : ZMod modulus) ?_ ?_
  · rw [← cast_powMod modulus base (by omega), hone, Nat.cast_one]
  · intro q hq hdvd hpower
    rw [← hprod] at hdvd
    obtain ⟨x, hx, hqx⟩ := (Prime.dvd_prod_iff hq.prime).mp hdvd
    obtain rfl := (Nat.prime_dvd_prime_iff_eq hq (hfactors x hx)).mp hqx
    have hsmall : (modulus - 1) / q < 2 ^ 256 :=
      Nat.lt_of_le_of_lt (Nat.div_le_self _ _) (by omega)
    have hlt : powMod modulus base ((modulus - 1) / q) < modulus := powMod_lt (by omega) _ _
    have hmod : powMod modulus base ((modulus - 1) / q) ≡ 1 [MOD modulus] := by
      rw [← ZMod.natCast_eq_natCast_iff, cast_powMod modulus base hsmall, hpower, Nat.cast_one]
    exact hproper q hx (hmod.eq_of_lt_of_lt hlt hpos)

/-- **The modulus of the coordinates is prime.** The numbers that are shown to be prime on the way
are the large factors of one another's predecessors. -/
theorem prime_fieldPrime : fieldPrime.Prime := by
  -- The names say how many bits the primes have.
  have h58 : Nat.Prime 173378833005251801 :=
    prime_of_isGenerator 6 [2, 2, 2, 5, 5, 2621, 24809, 13331831] (by norm_num) (by decide +kernel)
  have h75 : Nat.Prime 22149492674086928081353 :=
    prime_of_isGenerator 5 [2, 2, 2, 3, 5323, 173378833005251801]
      (by simp only [List.forall_mem_cons, h58]; norm_num) (by decide +kernel)
  have h77 : Nat.Prime 132896956044521568488119 :=
    prime_of_isGenerator 6 [2, 3, 22149492674086928081353]
      (by simp only [List.forall_mem_cons, h75]; norm_num) (by decide +kernel)
  have h128 : Nat.Prime 255515944373312847190720520512484175977 :=
    prime_of_isGenerator 3
      [2, 2, 2, 7, 7, 11, 1627, 2657, 4423, 41201, 96557, 7240687, 107590001]
      (by norm_num) (by decide +kernel)
  have h237 : Nat.Prime
      205115282021455665897114700593932402728804164701536103180137503955397371 :=
    prime_of_isGenerator 10
      [2, 3, 5, 29, 29, 31, 7723, 132896956044521568488119,
        255515944373312847190720520512484175977]
      (by simp only [List.forall_mem_cons, h77, h128]; norm_num) (by decide +kernel)
  exact prime_of_isGenerator 3
    [2, 3, 7, 13441,
      205115282021455665897114700593932402728804164701536103180137503955397371]
    (by simp only [List.forall_mem_cons, h237]; norm_num) (by decide +kernel)

instance : Fact fieldPrime.Prime :=
  ⟨prime_fieldPrime⟩

end CashWallet.Curve
