import CashWallet.Digest.Chain
import CashWallet.Hex

/-!
# `CashWallet/Curve/Key.lean` — private and public keys

A private key is a number below the number of points of the curve, and not zero: the bounds are part
of the type. A public key is a point of the plane, given by its two coordinates; it is written in 33
bytes (the first coordinate and the parity of the second) or in 65 (both). **What lies on the curve
is not decided here**: this module only holds the forms, and `CashWallet/Curve/Suite.lean` holds
what a key can do.

A payment is locked to the hash of the short form. The hash of the long form would lock to the same
key, with another script and another address.

Keys are derived from one another by moving them on, the private key by a number and the public key
by the same multiple of the base point. Two numbers cannot be used for that: one that is not below
the number of points, and the one that leads to zero. Each has an error of its own, on either side.
-/

set_option autoImplicit false

namespace CashWallet

/-- The number of points, infinity included. -/
def curveOrder : Nat :=
  0xfffffffffffffffffffffffffffffffebaaedce6af48a03bbfd25e8cd0364141

/-- A number by which a point is multiplied: at least one, and below the number of points. -/
structure PrivateKey where
  scalar : Nat
  pos : 0 < scalar
  lt : scalar < curveOrder
  deriving DecidableEq

/-- Why something is no private key, or cannot be moved on. -/
inductive PrivateKeyError
  | notHex (e : HexError)
  | wrongLength (length : Nat)
  | outOfRange
  | tweakOutOfRange
  | tweakedToZero
  deriving Repr, DecidableEq

/-- What is reported of it. A number out of range is reported as a failed signature, as the curve
words all its failures. -/
def PrivateKeyError.message : PrivateKeyError → String
  | .notHex e => s!"invalid hex: {e.message}"
  | .wrongLength n => s!"invalid private key: expected 32 bytes, got {n}"
  | .outOfRange => "invalid private key: signature error"
  | .tweakOutOfRange => "invalid private key: scalar is not below the curve order"
  | .tweakedToZero => "invalid private key: tweaked key is zero"

namespace PrivateKey

def ofNat? (n : Nat) : Option PrivateKey :=
  if h : 0 < n ∧ n < curveOrder then some ⟨n, h.1, h.2⟩ else none

def ofBytes? (b : Bytes) : Except PrivateKeyError PrivateKey :=
  if b.length ≠ 32 then .error (.wrongLength b.length)
  else
    match ofNat? (Bytes.toNatBE b) with
    | some k => .ok k
    | none => .error .outOfRange

def parse (text : String) : Except PrivateKeyError PrivateKey :=
  match Hex.decode text with
  | .ok b => ofBytes? b
  | .error e => .error (.notHex e)

/-- The key in 32 bytes, zeros in front included. -/
def toBytes (k : PrivateKey) : Bytes :=
  Bytes.ofNatBE 32 k.scalar

/-- The private key moved on by a number below the number of points. -/
def tweak (k : PrivateKey) (t : Bytes) : Except PrivateKeyError PrivateKey :=
  let n := Bytes.toNatBE t
  if curveOrder ≤ n then .error .tweakOutOfRange
  else
    match ofNat? ((n + k.scalar) % curveOrder) with
    | some moved => .ok moved
    | none => .error .tweakedToZero

end PrivateKey

/-- A point other than the one at infinity. -/
structure PublicKey where
  x : Nat
  y : Nat
  deriving Repr, DecidableEq

namespace PublicKey

/-- The 33-byte form: the parity of the second coordinate, and the first. -/
def compressed (k : PublicKey) : Bytes :=
  (if k.y % 2 = 0 then 0x02 else 0x03) :: Bytes.ofNatBE 32 k.x

def uncompressed (k : PublicKey) : Bytes :=
  0x04 :: (Bytes.ofNatBE 32 k.x ++ Bytes.ofNatBE 32 k.y)

/-- The hash to which payments to the key are locked, taken of its short form. -/
def hash160 (k : PublicKey) : Hash160 :=
  .ofContent k.compressed

@[simp] theorem length_compressed (k : PublicKey) : k.compressed.length = 33 := by
  simp [compressed]

end PublicKey

end CashWallet
