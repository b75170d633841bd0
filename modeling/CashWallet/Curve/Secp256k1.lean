import CashWallet.Curve.Point
import CashWallet.Curve.Suite
import CashWallet.Digest.Keyed

/-!
# `CashWallet/Curve/Secp256k1.lean` — signing and verifying on the curve

A signature is made with a nonce that depends on nothing but the key and the digest, drawn from a
generator that is keyed with both; the second number is always the smaller of the two that would do.
Verification takes no other: of the two signatures with the same first number **only the low one is
valid**, so that nobody but the signer can change one.

The generator is the one of RFC 6979 over SHA-256. Its outputs are tried in turn until one is a
number in range, which nearly always the first one is; signing gives up after a hundred, so that it
ends for a reason that can be seen.

Digests have 32 bytes when they are signed. When a signature is verified the digest may come from
elsewhere and have another length, and what counts of it is fixed (`digestToVerify?`). The two agree
on digests of 32 bytes, which are the only ones that spending a payment makes.
-/

set_option autoImplicit false

namespace CashWallet.Curve

/-- The state of the nonce generator: its key and its last output. -/
structure NonceState where
  key : Bytes
  value : Bytes

namespace NonceState

def mix (g : NonceState) (marker : UInt8) (data : Bytes) : NonceState :=
  let key := Digest.hmacSha256 g.key (g.value ++ marker :: data)
  ⟨key, Digest.hmacSha256 key g.value⟩

def start (k : PrivateKey) (digest : Bytes) : NonceState :=
  let data := k.toBytes ++ digest
  ((⟨List.replicate 32 0, List.replicate 32 1⟩ : NonceState).mix 0 data).mix 1 data

/-- The next output that is in range, of so many tries. -/
def next? : Nat → NonceState → Option Nat
  | 0, _ => none
  | tries + 1, g =>
    let value := Digest.hmacSha256 g.key g.value
    let n := Bytes.toNatBE value
    if 0 < n ∧ n < curveOrder then some n
    else next? tries ((⟨g.key, value⟩ : NonceState).mix 0 [])

end NonceState

def digestNumber (digest : Bytes) : Nat :=
  Bytes.toNatBE digest % curveOrder

/-- The smaller of a number and its opposite. -/
def lowHalf (s : Nat) : Nat :=
  if curveOrder / 2 < s then curveOrder - s else s

/-- The signature of a digest of 32 bytes. An output of the nonce generator is out of range with a
chance below 2⁻¹²⁷, so a hundred of them never run out. -/
def sign (k : PrivateKey) (digest : Bytes) : Option Signature := do
  let nonce ← (NonceState.start k digest).next? 100
  let point ← ((Point.base).smul nonce).toPublicKey?
  let r := point.x % curveOrder
  let s := inverseMod curveOrder nonce * (digestNumber digest + r * k.scalar) % curveOrder
  Signature.ofNats? r (lowHalf s)

/-- The 32 bytes of a digest that count: the first of a longer one, and a shorter one of at least
16 with zeros in front. -/
def digestToVerify? (digest : Bytes) : Option Bytes :=
  if digest.length < 16 then none else some (Bytes.padLeft 32 (digest.take 32))

/-- Whether a signature over a digest is the low one made with the private key of a point. -/
def verify (k : PublicKey) (digest : Bytes) (sig : Signature) : Bool :=
  match digestToVerify? digest with
  | none => false
  | some d =>
    -- The high one of the two numbers satisfies the equation too, and is refused.
    if curveOrder / 2 < sig.s then false
    else
      let w := inverseMod curveOrder sig.s
      let u₁ := digestNumber d * w % curveOrder
      let u₂ := sig.r * w % curveOrder
      match (((Point.base).smul u₁).add ((Point.ofPublicKey k).smul u₂)).toPublicKey? with
      | none => false
      | some point => point.x % curveOrder == sig.r

def stretchRounds : Nat := 2048

instance secp256k1 : KeySuite where
  publicKey k := (((Point.base).smul k.scalar).toPublicKey?).getD ⟨0, 0⟩
  shift k n := (((Point.base).smul n).add (Point.ofPublicKey k)).toPublicKey?
  readPoint := readPoint
  sign := sign
  verify := verify
  stretch phrase := Digest.stretchSha512 phrase (Text.utf8 "mnemonic") stretchRounds

end CashWallet.Curve
