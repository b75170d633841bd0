import CashWallet.Text.Words

/-!
# `CashWallet/Decimal.lean` — numbers with a point that floats, as decimal texts

Versions are numbers of 64 bits with a point that floats, and they travel as decimal texts. Both
ways are done in whole numbers here, without any arithmetic on the numbers themselves: **a text
stands for the number nearest to its exact value, and a number is written as the text nearest to its
exact value.** Ties go to the even neighbour in both directions, and `roundDiv` is the only place
where anything is rounded.

What makes this short is that the magnitudes stand in the order of their bits. Each is a significand
below 2⁵³ times a power of two, and adding one to the bits goes to the next larger magnitude, also
where the power changes. So the bits of a magnitude are its significand plus 2⁵² for every step of
the power above the smallest, and rounding up into the next power needs no care (`nearestBits`).

A literal is a sign, digits with a point among, before or behind them, and an exponent; or a sign
and the name of infinity or of what is not a number, in letters of either case. At least one digit
has to be there, and at least one behind the mark of an exponent. The exponent may be astronomic:
before any power of ten is formed, the place of the first digit that counts decides whether the
number is past the largest or below half the smallest (`scaledBits`).

A number is written with a fixed number of places, in plain digits, however large it is. Every
number of 64 bits has an exact decimal value, so the middle between two multiples of the last place
can be hit. The sign is written also where only zeros follow it.
-/

set_option autoImplicit false

/-! ## Quotients rounded to the nearest number -/

namespace CashWallet.Decimal

/-- The whole number nearest to a quotient; of two that are equally near, the even one. -/
def roundDiv (num den : Nat) : Nat :=
  let quotient := num / den
  let twice := 2 * (num % den)
  if twice < den then quotient
  else if den < twice then quotient + 1
  else quotient + quotient % 2

end CashWallet.Decimal

/-! ## Magnitudes and their bits -/

namespace CashWallet.Decimal

/-- The power of two of the smallest magnitudes. -/
def leastPower : Int := -1074

/-- The bits of infinity, which are those of the magnitude that would come next behind the
largest. -/
def infinityBits : Nat := 0x7ff0000000000000

/-- The bits of what is not a number, as reading gives them. -/
def nanBits : Nat := 0x7ff8000000000000

/-- How many bits of a significand are written; the one in front of them follows from the power. -/
def fractionWidth : Nat := 52

/-- The bit of the sign, above all bits of a magnitude. -/
def signBit : Nat := 0x8000000000000000

/-- A magnitude by its exact value, a significand times a power of two. -/
inductive Magnitude
  | finite (significand : Nat) (power : Int)
  | infinite
  | nan
  deriving Repr, DecidableEq

/-- The magnitude with given bits. Only the smallest power has significands without the bit in
front. -/
def Magnitude.ofBits (bits : Nat) : Magnitude :=
  let step := bits >>> fractionWidth
  let fraction := bits % (1 <<< fractionWidth)
  if step = 0x7ff then if fraction = 0 then infinite else nan
  else if step = 0 then finite fraction leastPower
  else finite (1 <<< fractionWidth + fraction) (leastPower + (step - 1 : Nat))

/-- The power of two next below a quotient. The lengths of the two numbers give it or the one
above. -/
def floorLog2 (num den : Nat) : Int :=
  let guess : Int := num.log2 - den.log2
  let isBelow := if 0 ≤ guess then num < den <<< guess.toNat else num <<< (-guess).toNat < den
  if isBelow then guess - 1 else guess

/-- The bits of the magnitude nearest to a quotient; infinity when it is past the largest. -/
def nearestBits (num den : Nat) : Nat :=
  if num = 0 then 0
  else
    let power := max (floorLog2 num den - fractionWidth) leastPower
    let significand :=
      if 0 ≤ power then roundDiv num (den <<< power.toNat)
      else roundDiv (num <<< (-power).toNat) den
    min (significand + (power - leastPower).toNat <<< fractionWidth) infinityBits

def ofSignBits (negative : Bool) (bits : Nat) : Float :=
  Float.ofBits (UInt64.ofNat (if negative then signBit + bits else bits))

end CashWallet.Decimal

/-! ## Reading a literal -/

namespace CashWallet.Decimal

inductive LiteralError
  | empty
  | malformed
  deriving Repr, DecidableEq

def LiteralError.message : LiteralError → String
  | .empty => "cannot parse float from empty string"
  | .malformed => "invalid float literal"

def digitsValue (digits : List Char) : Nat :=
  digits.foldl (fun n c => 10 * n + (c.toNat - 48)) 0

/-- The sign of a literal and what stands behind it. No sign means a positive one. -/
def splitSign : List Char → Bool × List Char
  | '-' :: rest => (true, rest)
  | '+' :: rest => (false, rest)
  | cs => (false, cs)

/-- The exponent that stands behind the digits, if what stands there is one. -/
def exponent? : List Char → Option Int
  | [] => some 0
  | c :: rest =>
    if c = 'e' ∨ c = 'E' then
      let (negative, digits) := splitSign rest
      if digits.isEmpty || !digits.all Char.isDigit then none
      else
        let n := digitsValue digits
        some (if negative then -(n : Int) else n)
    else none

/-- The bits of the magnitude nearest to a row of digits times a power of ten. A number of which the
first digit that is not zero stands for 10³¹⁰ or more is past the largest magnitude; one of which
it stands for less than 10⁻³³⁰ is below half the smallest. -/
def scaledBits (digits : List Char) (exponent : Int) : Nat :=
  let significant := digits.dropWhile (· == '0')
  let place := exponent + significant.length
  if significant.isEmpty || place < -330 then 0
  else if 310 < place then infinityBits
  else
    let n := digitsValue significant
    if 0 ≤ exponent then nearestBits (n * Nat.pow 10 exponent.toNat) 1
    else nearestBits n (Nat.pow 10 (-exponent).toNat)

/-- The magnitude of digits with a point and an exponent, if they are that. -/
def digitsBits? (cs : List Char) : Option Nat :=
  let whole := cs.takeWhile Char.isDigit
  let afterWhole := cs.dropWhile Char.isDigit
  let (fraction, rest) := match afterWhole with
    | '.' :: behind => (behind.takeWhile Char.isDigit, behind.dropWhile Char.isDigit)
    | _ => ([], afterWhole)
  let digits := whole ++ fraction
  if digits.isEmpty then none
  else (exponent? rest).map fun e => scaledBits digits (e - fraction.length)

/-- The magnitude that a literal without its sign stands for. -/
def magnitudeBits? (cs : List Char) : Option Nat :=
  let name := String.ofList (cs.map Char.toLower)
  if name = "inf" ∨ name = "infinity" then some infinityBits
  else if name = "nan" then some nanBits
  else digitsBits? cs

def parse (text : String) : Except LiteralError Float :=
  match text.toList with
  | [] => .error .empty
  | cs =>
    let (negative, magnitude) := splitSign cs
    match magnitudeBits? magnitude with
    | some bits => .ok (ofSignBits negative bits)
    | none => .error .malformed

end CashWallet.Decimal

/-! ## Writing with a fixed number of places -/

namespace CashWallet.Decimal

/-- How many units of 10⁻ᵖ the magnitude nearest to `significand · 2 ^ power` has. -/
def inUnits (places significand : Nat) (power : Int) : Nat :=
  if 0 ≤ power then significand <<< power.toNat * Nat.pow 10 places
  else roundDiv (significand * Nat.pow 10 places) (1 <<< (-power).toNat)

/-- A number of units of 10⁻ᵖ with a point before its last `places` digits. -/
def pointed (places units : Nat) : String :=
  let fraction := Nat.toDigits 10 (units % Nat.pow 10 places)
  toString (units / Nat.pow 10 places) ++ "." ++
    String.ofList (List.replicate (places - fraction.length) '0' ++ fraction)

def fixed (places : Nat) (x : Float) : String :=
  let bits := x.toBits.toNat
  let sign := if signBit ≤ bits then "-" else ""
  match Magnitude.ofBits (bits % signBit) with
  | .nan => "NaN"
  | .infinite => sign ++ "inf"
  | .finite significand power => sign ++ pointed places (inUnits places significand power)

end CashWallet.Decimal
