import CashWallet.Curve.Key

/-!
# `CashWallet/Curve/Point.lean` — arithmetic on the curve y² = x³ + 7

Points are kept with a common denominator (`(x, y, z)` stands for `(x / z², y / z³)`, infinity has
`z = 0`), so that a multiplication by a number needs a single division at its end. Multiplication
doubles and adds, from the highest of 256 bits down. The number of bits is fixed, and with it the
recursion, so that nothing here needs an argument why it ends.

The field has no type of its own: its elements are numbers below the prime, and each operation
reduces what it makes. Division is a power, by Fermat's little theorem, and so is the square root,
because the prime leaves 3 modulo 4. That the prime is one is not needed to run any of this; it is
proved in `CashWallet/Proofs/Curve/Modulus.lean`, where something depends on it.

Bytes are read as a point in three forms (`readPoint`). Two of them are the ones in which keys are
written; the third, with the tag `05`, has the first coordinate only.
-/

set_option autoImplicit false

namespace CashWallet.Curve

/-- The prime 2²⁵⁶ - 2³² - 977. -/
def fieldPrime : Nat :=
  0xfffffffffffffffffffffffffffffffffffffffffffffffffffffffefffffc2f

/-- The power of a number modulo another, from the highest of the given count of exponent bits
down. -/
def powBits (modulus base exponent : Nat) : Nat → Nat → Nat
  | 0, acc => acc
  | i + 1, acc =>
    let squared := acc * acc % modulus
    powBits modulus base exponent i
      (if exponent.testBit i then squared * base % modulus else squared)

/-- The power of a number modulo another, for exponents below 2²⁵⁶. -/
def powMod (modulus base exponent : Nat) : Nat :=
  powBits modulus (base % modulus) exponent 256 (1 % modulus)

/-- The inverse modulo a prime; of zero it is zero. -/
def inverseMod (modulus n : Nat) : Nat :=
  powMod modulus n (modulus - 2)

def sub (a b : Nat) : Nat :=
  (a + (fieldPrime - b)) % fieldPrime

def mul (a b : Nat) : Nat :=
  a * b % fieldPrime

/-- The point with the coordinates `x / z²` and `y / z³`; infinity has `z = 0`. -/
structure Point where
  x : Nat
  y : Nat
  z : Nat

namespace Point

/-- The neutral point. Any coordinates would do where `z` is zero. -/
def infinity : Point :=
  ⟨1, 1, 0⟩

/-- The point of which every other is a multiple. -/
def base : Point :=
  ⟨0x79be667ef9dcbbac55a06295ce870b07029bfcdb2dce28d959f2815b16f81798,
   0x483ada7726a3c4655da4fbfc0e1108a8fd17b448a68554199c47d08ffb10d4b8, 1⟩

def ofPublicKey (k : PublicKey) : Point :=
  ⟨k.x, k.y, 1⟩

/-- The tangent rule. A point with second coordinate zero would be its own opposite. -/
def double (p : Point) : Point :=
  if p.z = 0 ∨ p.y = 0 then infinity
  else
    let yy := mul p.y p.y
    let s := mul (4 * p.x) yy
    let m := mul (3 * p.x) p.x
    let x := sub (mul m m) (mul 2 s)
    ⟨x, sub (mul m (sub s x)) (mul (8 * yy) yy), mul (2 * p.y) p.z⟩

/-- The chord rule, and the cases in which there is no chord. -/
def add (p q : Point) : Point :=
  if p.z = 0 then q
  else if q.z = 0 then p
  else
    let zz₁ := mul p.z p.z
    let zz₂ := mul q.z q.z
    let u₁ := mul p.x zz₂
    let u₂ := mul q.x zz₁
    let s₁ := mul (p.y * q.z) zz₂
    let s₂ := mul (q.y * p.z) zz₁
    -- Points with one first coordinate are the same or add up to infinity.
    if u₁ = u₂ then
      if s₁ = s₂ then double p else infinity
    else
      let h := sub u₂ u₁
      let r := sub s₂ s₁
      let hh := mul h h
      let hhh := mul h hh
      let v := mul u₁ hh
      let x := sub (sub (mul r r) hhh) (mul 2 v)
      ⟨x, sub (mul r (sub v x)) (mul s₁ hhh), mul (h * p.z) q.z⟩

/-- The multiples of a point by the highest bits of a number, one bit a step. -/
def mulBits (p : Point) (n : Nat) : Nat → Point → Point
  | 0, acc => acc
  | i + 1, acc =>
    let doubled := acc.double
    mulBits p n i (if n.testBit i then doubled.add p else doubled)

def smul (n : Nat) (p : Point) : Point :=
  mulBits p n 256 infinity

/-- The two coordinates of a point, unless it is infinity. This is the only division of a
multiplication. -/
def toPublicKey? (p : Point) : Option PublicKey :=
  if p.z = 0 then none
  else
    let w := inverseMod fieldPrime p.z
    let ww := mul w w
    some ⟨mul p.x ww, mul p.y (mul w ww)⟩

end Point

def curveRhs (x : Nat) : Nat :=
  (x * x * x + 7) % fieldPrime

/-- Whether two numbers are the coordinates of a point. Numbers that are not reduced are refused. -/
def onCurve (x y : Nat) : Bool :=
  x < fieldPrime && y < fieldPrime && mul y y == curveRhs x

/-- The second coordinate with the given parity (`0` or `1`) that belongs to a first one. -/
def lift? (x parity : Nat) : Option Nat :=
  -- The prime leaves 3 modulo 4, so this power is a root whenever there is one.
  let root := powMod fieldPrime (curveRhs x) ((fieldPrime + 1) / 4)
  let y := if root % 2 = parity then root else fieldPrime - root
  if onCurve x y && y % 2 == parity then some y else none

/-- The point that a byte string writes: a tag and one coordinate or two. The tags `02` and `03`
give the parity of the second coordinate, the tag `05` leaves it out and means the even one. -/
def readPoint (b : Bytes) : Option PublicKey :=
  match b with
  | [] => none
  | tag :: rest =>
    if rest.length = 32 then
      let x := Bytes.toNatBE rest
      if tag = 0x02 ∨ tag = 0x05 then (lift? x 0).map (⟨x, ·⟩)
      else if tag = 0x03 then (lift? x 1).map (⟨x, ·⟩)
      else none
    else if rest.length = 64 ∧ tag = 0x04 then
      let x := Bytes.toNatBE (rest.take 32)
      let y := Bytes.toNatBE (rest.drop 32)
      if onCurve x y then some ⟨x, y⟩ else none
    else none

end CashWallet.Curve
