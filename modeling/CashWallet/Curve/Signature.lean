import CashWallet.Curve.Key

/-!
# `CashWallet/Curve/Signature.lean` — signatures and their distinguished form

A signature is a pair of numbers from one up to the number of points. Its distinguished encoding is
a sequence of two integers, each written with as few bytes as keep it positive. Reading is strict:
**a byte string is accepted only if it is the written form of the signature read from it**, so that
a signature has exactly one encoding and nothing can be changed about it.

Strictness costs no rules here. The reader takes the two numbers from the places where a written
signature has them, whatever else is in the string, writes the signature again and compares
(`Signature.ofDer?`). Wrong tags, wrong lengths, zeros too many and bytes behind the end are all
found by the comparison.

Whether the second number is the low one of two is not part of being a signature; that is asked for
where signatures are verified.
-/

set_option autoImplicit false

namespace CashWallet

structure Signature where
  r : Nat
  s : Nat
  r_range : 0 < r ∧ r < curveOrder
  s_range : 0 < s ∧ s < curveOrder
  deriving DecidableEq

inductive SignatureError
  | wrongDigestLength (length : Nat)
  | malformed
  | notSigned
  deriving Repr, DecidableEq

def SignatureError.message : SignatureError → String
  | .wrongDigestLength n => s!"invalid signature: digest must be 32 bytes, got {n}"
  | .malformed => "invalid signature: signature error"
  | .notSigned => "invalid signature: signature error"

namespace Signature

def ofNats? (r s : Nat) : Option Signature :=
  if h : (0 < r ∧ r < curveOrder) ∧ 0 < s ∧ s < curveOrder then
    some ⟨r, s, h.1, h.2⟩
  else none

/-- The fewest bytes that write a number of at most 32 bytes and keep the top bit clear. -/
def integerBytes (n : Nat) : Bytes :=
  match (Bytes.ofNatBE 32 n).dropWhile (· == 0) with
  | [] => [0]
  | b :: rest => if b.toNat < 0x80 then b :: rest else 0 :: b :: rest

/-- A number behind its tag and its length, which is never above 33. -/
def integer (n : Nat) : Bytes :=
  let content := integerBytes n
  0x02 :: UInt8.ofNat content.length :: content

/-- A signature as bytes: both numbers behind a tag and their common length. -/
def toDer (sig : Signature) : Bytes :=
  let content := integer sig.r ++ integer sig.s
  0x30 :: UInt8.ofNat content.length :: content

/-- The two numbers at the places where a written signature has them. -/
def numbersIn : Bytes → Option (Nat × Nat)
  | _ :: _ :: _ :: size :: rest =>
    match rest.drop size.toNat with
    | _ :: _ :: second => some (Bytes.toNatBE (rest.take size.toNat), Bytes.toNatBE second)
    | _ => none
  | _ => none

def ofDer? (b : Bytes) : Except SignatureError Signature :=
  match numbersIn b with
  | none => .error .malformed
  | some (r, s) =>
    match ofNats? r s with
    | none => .error .malformed
    | some sig => if sig.toDer = b then .ok sig else .error .malformed

end Signature

end CashWallet
