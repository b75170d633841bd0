import CashWallet.Curve.Suite
import CashWallet.Digest.Keyed
import CashWallet.Wallet.Mnemonic
import CashWallet.Wallet.Config

/-!
# `CashWallet/Wallet/ExtendedKey.lean` — the tree of keys

A seed is the root of a tree of keys: each node has a child for every number of 32 bits. A node with
a private key has all of them; a node with a public key has those below 2³¹, and **they are the
public sides of the same children**, because a child is its parent moved on by an amount that
depends on public data only. The children from 2³¹ on are called hardened: their amount depends on
the private key.

The amount of a child is the first half of a keyed hash, and the second half is the key for the next
level (`halves`). The keyed data are the public key of the parent, or its private key for a hardened
child, and the number.

A few amounts lead to no key. Then there is no such child, and that is an error and not the next
child: whoever asks for a number gets the key at that number or none. The tree ends at level 255,
because the depth of a node is written in one byte.
-/

set_option autoImplicit false

namespace CashWallet

def hardenedStart : UInt32 := 0x80000000

inductive SeedError
  | length (n : Nat)
  | unusable (e : PrivateKeyError)
  deriving Repr, DecidableEq

def SeedError.message : SeedError → String
  | .length n => s!"seed is {n} bytes, want 16 to 64"
  | .unusable e => e.message

inductive DerivationError
  | invalidSeed (e : SeedError)
  | invalidChild (index : UInt32)
  | hardenedFromPublic (index : UInt32)
  | invalidMnemonic (e : MnemonicError)
  deriving Repr, DecidableEq

def DerivationError.message : DerivationError → String
  | .invalidSeed e => s!"invalid seed: {e.message}"
  | .invalidChild i => s!"child {i.toNat} is not a valid key"
  | .hardenedFromPublic i => s!"cannot derive hardened child {i.toNat} from a public key"
  | .invalidMnemonic e => s!"invalid mnemonic: {e.message}"

/-- The key of a node: a private one, or a public one alone. -/
inductive NodeKey
  | secret (k : PrivateKey)
  | shown (k : PublicKey)
  deriving DecidableEq

/-- A node of the tree. Besides its key it has what its children depend on, and where it stands. -/
structure ExtendedKey where
  key : NodeKey
  chainCode : FixedBytes 32
  depth : UInt8
  parentFingerprint : FixedBytes 4
  childNumber : UInt32
  network : Network
  deriving DecidableEq

namespace ExtendedKey

def halves (key message : Bytes) : Bytes × FixedBytes 32 :=
  let b := Digest.hmacSha512 key message
  (b.take 32, ⟨b.drop 32, by simp [b]⟩)

/-- The root of the tree of a seed of 16 to 64 bytes. -/
def root (seed : Bytes) (network : Network) : Except DerivationError ExtendedKey :=
  if seed.length < 16 ∨ 64 < seed.length then .error (.invalidSeed (.length seed.length))
  else
    let (left, chainCode) := halves (Text.utf8 "Bitcoin seed") seed
    match PrivateKey.ofBytes? left with
    | .error e => .error (.invalidSeed (.unusable e))
    | .ok k => .ok ⟨.secret k, chainCode, 0, .zeros 4, 0, network⟩

def isPrivate (n : ExtendedKey) : Bool :=
  match n.key with
  | .secret _ => true
  | .shown _ => false

def privateKey? (n : ExtendedKey) : Option PrivateKey :=
  match n.key with
  | .secret k => some k
  | .shown _ => none

def mark (n : ExtendedKey) : FixedBytes 4 :=
  if n.isPrivate then n.network.privateKeyMark else n.network.publicKeyMark

def isHardened (index : UInt32) : Bool :=
  hardenedStart ≤ index

variable [KeySuite]

/-- The public key of a node, which a node with a private key has too. -/
def publicKey (n : ExtendedKey) : PublicKey :=
  match n.key with
  | .secret k => k.publicKey
  | .shown k => k

/-- What the children of a node name it by. -/
def fingerprint (n : ExtendedKey) : FixedBytes 4 :=
  ⟨n.publicKey.hash160.bytes.take 4, by simp [n.publicKey.hash160.length_bytes]⟩

/-- What the amount of a child depends on. -/
def childData (n : ExtendedKey) (index : UInt32) : Bytes :=
  (match n.key with
    | .secret k => if isHardened index then 0 :: k.toBytes else n.publicKey.compressed
    | .shown _ => n.publicKey.compressed) ++ Bytes.ofNatBE 4 index.toNat

/-- The key moved on; nothing when the sum is no key. -/
def NodeKey.tweak? (k : NodeKey) (t : Bytes) : Option NodeKey :=
  match k with
  | .secret k => (k.tweak t).toOption.map .secret
  | .shown k => (k.tweak t).toOption.map .shown

/-- A child of a node. The tree is 255 levels deep. -/
def child (n : ExtendedKey) (index : UInt32) : Except DerivationError ExtendedKey :=
  -- Depth is written in one byte.
  if n.depth = 255 then .error (.invalidChild index)
  else if !n.isPrivate && isHardened index then .error (.hardenedFromPublic index)
  else
    let (amount, chainCode) := halves n.chainCode.bytes (n.childData index)
    match NodeKey.tweak? n.key amount with
    | none => .error (.invalidChild index)
    | some key => .ok ⟨key, chainCode, n.depth + 1, n.fingerprint, index, n.network⟩

/-- The node at the end of a path, if there is every node on it. -/
def descend (n : ExtendedKey) : List UInt32 → Except DerivationError ExtendedKey
  | [] => .ok n
  | index :: path =>
    match n.child index with
    | .ok c => c.descend path
    | .error e => .error e

def neuter (n : ExtendedKey) : ExtendedKey :=
  { n with key := .shown n.publicKey }

/-- A node as a line of a log shows it: without its private key and its chain code. -/
def describe (n : ExtendedKey) : String :=
  let fields := [s!"is_private: {n.isPrivate}",
    "public_key: \"" ++ Hex.encode n.publicKey.compressed ++ "\"",
    s!"depth: {n.depth.toNat}",
    "parent_fingerprint: \"" ++ Hex.encode n.parentFingerprint.bytes ++ "\"",
    s!"child_number: {n.childNumber.toNat}",
    "network: \"" ++ n.network.name ++ "\""]
  "ExtendedKey \x7b " ++ ", ".intercalate fields ++ " \x7d"

def address (n : ExtendedKey) (label : String) : CashAddress :=
  ⟨label, .pubKeyHash, n.publicKey.hash160⟩

end ExtendedKey

end CashWallet
