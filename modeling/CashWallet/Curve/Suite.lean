import CashWallet.Curve.Signature

/-!
# `CashWallet/Curve/Suite.lean` — what a wallet takes on trust

All of a wallet but a few operations is bookkeeping over byte strings. The exceptions are listed in
`KeySuite`: multiplying and adding points, finding the point with a given first coordinate, signing,
verifying, and stretching a phrase into a seed. **Everything above this module is written against
the list and not against a curve**, so that a statement about wallets needs no more of the curve
than the laws it names. The list is filled in by `CashWallet/Curve/Secp256k1.lean`.

The checks that surround the operations (lengths, ranges, the wording of failures) are the same for
every suite and are found here. So the operations of the list may be partial and silent: they answer
with nothing, and what that means to the caller is said around them.

No laws are part of the class. A statement that needs one has it as a hypothesis, by name, and what
is proved of every suite is proved of one whose signatures never verify. Such statements are the
majority: how records change, what is signed, and which part of a script counts do not depend on the
curve.
-/

set_option autoImplicit false

namespace CashWallet

/-- The operations of the curve and the stretching of phrases. -/
class KeySuite where
  publicKey : PrivateKey → PublicKey
  /-- A point moved on by a multiple of the base point; nothing when that is infinity. -/
  shift : PublicKey → Nat → Option PublicKey
  readPoint : Bytes → Option PublicKey
  sign : PrivateKey → Bytes → Option Signature
  verify : PublicKey → Bytes → Signature → Bool
  stretch : Bytes → Bytes

inductive PublicKeyError
  | notHex (e : HexError)
  | empty
  | malformed
  | tweakOutOfRange
  | tweakedToInfinity
  deriving Repr, DecidableEq

/-- What is reported of it. Bytes that are no point are reported as a failed signature, as the curve
words all its failures. -/
def PublicKeyError.message : PublicKeyError → String
  | .notHex e => s!"invalid hex: {e.message}"
  | .empty => "invalid public key: pubkey bytes are empty"
  | .malformed => "invalid public key: signature error"
  | .tweakOutOfRange =>
    s!"invalid public key: {PrivateKeyError.tweakOutOfRange.message}"
  | .tweakedToInfinity => "invalid public key: tweaked point is infinity"

variable [KeySuite]

namespace PrivateKey

def publicKey (k : PrivateKey) : PublicKey :=
  KeySuite.publicKey k

def sign (k : PrivateKey) (digest : Bytes) : Except SignatureError Signature :=
  if digest.length ≠ 32 then .error (.wrongDigestLength digest.length)
  else
    match KeySuite.sign k digest with
    | some sig => .ok sig
    | none => .error .notSigned

end PrivateKey

namespace PublicKey

/-- The key that a byte string writes, in any form that the suite reads. -/
def ofBytes? (b : Bytes) : Except PublicKeyError PublicKey :=
  if b.isEmpty then .error .empty
  else
    match KeySuite.readPoint b with
    | some k => .ok k
    | none => .error .malformed

def parse (text : String) : Except PublicKeyError PublicKey :=
  match Hex.decode text with
  | .ok b => ofBytes? b
  | .error e => .error (.notHex e)

/-- The key moved on by a multiple of the base point, as the private key of the same derivation is
by the number itself. -/
def tweak (k : PublicKey) (t : Bytes) : Except PublicKeyError PublicKey :=
  let n := Bytes.toNatBE t
  if curveOrder ≤ n then .error .tweakOutOfRange
  else
    match KeySuite.shift k n with
    | some moved => .ok moved
    | none => .error .tweakedToInfinity

end PublicKey

/-- Whether a signature over a digest was made with the private key of a point. -/
def Signature.verify (sig : Signature) (digest : Bytes) (k : PublicKey) : Bool :=
  KeySuite.verify k digest sig

end CashWallet
