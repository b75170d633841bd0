import CashWallet.Address.Basic
import CashWallet.Script.Chunk

/-!
# `CashWallet/Script/LockClass.lean` — the standard shapes of locking scripts

A payment is locked to the hash of a key, to a key, to the hash of a script, or to several keys;
some outputs lock nothing and only carry data. Each shape is a test on the bytes, and `classify`
asks them in a fixed order. **The order is of no consequence**, because no script has two shapes; it
only says which test is asked first. A script that begins with a token has no shape of its own: what
is behind the token has.

The tests for the two locks to a hash, and for a lock to a key, look at lengths and at fixed places.
Those for several keys and for plain data cut the script into pieces first, and a script that cannot
be cut has neither shape.

## Who is paid

A locking script pays to the hash it holds, or to the hashes of the keys it holds (`payees`). An
unlocking script that pushes a signature and then a key shows the address that was paid: whoever
looks at a spend reads the payer off it (`payer?`). Neither is part of what travels.
-/

set_option autoImplicit false

namespace CashWallet

inductive LockClass
  | pubKeyHash
  | pubKey
  | scriptHash
  | multisig
  | nullData
  | nonstandard
  deriving Repr, DecidableEq

def LockClass.name : LockClass → String
  | pubKeyHash => "pubkeyhash"
  | pubKey => "pubkey"
  | scriptHash => "scripthash"
  | multisig => "multisig"
  | nullData => "nulldata"
  | nonstandard => "nonstandard"

namespace Script

open Opcode

def lockToKeyHash (h : Hash160) : Script :=
  ⟨[dup, hash160, 20] ++ h.bytes ++ [equalVerify, checkSig]⟩

def lockToScriptHash (h : Hash160) : Script :=
  ⟨[hash160, 20] ++ h.bytes ++ [equal]⟩

/-- `OP_DUP OP_HASH160 <20 bytes> OP_EQUALVERIFY OP_CHECKSIG` -/
def isPubKeyHash (s : Script) : Bool :=
  s.size == 25 && s.bytes.take 3 == [dup, hash160, 20] && s.bytes.drop 23 == [equalVerify, checkSig]

/-- `<compressed or uncompressed key> OP_CHECKSIG` -/
def isPubKey (s : Script) : Bool :=
  (s.size == 35 && (s.bytes.take 2 == [33, 0x02] || s.bytes.take 2 == [33, 0x03]) &&
      s.bytes.drop 34 == [checkSig]) ||
    (s.size == 67 && s.bytes.take 2 == [65, 0x04] && s.bytes.drop 66 == [checkSig])

/-- `OP_HASH160 <20 bytes> OP_EQUAL` -/
def isScriptHash (s : Script) : Bool :=
  s.size == 23 && s.bytes.take 2 == [hash160, 20] && s.bytes.drop 22 == [equal]

/-- Whether a piece has data of the size of a key in one of its two forms. -/
def isKeyChunk (c : Chunk) : Bool :=
  match c.data? with
  | some data => data.length == 33 || data.length == 65
  | none => false

/-- `OP_m <key> … <key> OP_n OP_CHECKMULTISIG` with `n` keys and `1 ≤ m ≤ n`, in pieces. -/
def isMultisigChunks (chunks : List Chunk) : Bool :=
  match chunks, chunks.reverse with
  | first :: _, last :: total :: _ =>
    -- The keys are what stands between the first piece and the last two.
    let keys := (chunks.drop 1).take (chunks.length - 3)
    match smallInt? first.op, smallInt? total.op with
    | some m, some n =>
      4 ≤ chunks.length && last.op == checkMultisig && 1 ≤ m && m ≤ n && keys.length == n &&
        keys.all isKeyChunk
    | _, _ => false
  | _, _ => false

def isMultisig (s : Script) : Bool :=
  match s.chunks with
  | .ok chunks => isMultisigChunks chunks
  | .error _ => false

/-- `OP_RETURN` and then nothing but pushes and small numbers. -/
def isNullData (s : Script) : Bool :=
  match s.bytes with
  | [] => false
  | op :: rest =>
    op == opReturn &&
      match Chunk.parse rest with
      | .ok chunks => chunks.all fun c => c.op ≤ op16 && c.op != reserved
      | .error _ => false

/-- Whether a token stands before the script. -/
def hasTokenMarker (s : Script) : Bool :=
  s.bytes.head? == some tokenMarker

/-- The shape of a script, by the first test that it meets. -/
def classify (s : Script) : LockClass :=
  if s.hasTokenMarker then .nonstandard
  else if s.isPubKeyHash then .pubKeyHash
  else if s.isPubKey then .pubKey
  else if s.isScriptHash then .scriptHash
  else if s.isMultisig then .multisig
  else if s.isNullData then .nullData
  else .nonstandard

def hashAt? (s : Script) (offset : Nat) : Option Hash160 :=
  Hash160.ofBytes? ((s.bytes.drop offset).take 20)

def keyHash (s : Script) : Except ScriptError Hash160 :=
  if s.bytes.isEmpty then .error .empty
  else if !s.isPubKeyHash then .error .notPubKeyHash
  else
    match s.hashAt? 3 with
    | some h => .ok h
    | none => .error .notPubKeyHash

end Script

end CashWallet

/-! ## Payees and payers -/

namespace CashWallet.Script

/-- The keys among the pieces of a script: the data of the size of a key. -/
def keysIn (chunks : List Chunk) : List Bytes :=
  (chunks.filterMap Chunk.data?).filter fun d => d.length == 33 || d.length == 65

/-- The addresses that a script pays to, in the order in which their keys stand in it. -/
def payees (label : String) (s : Script) : List CashAddress :=
  match s.classify with
  | .pubKeyHash => ((s.hashAt? 3).map fun h => ⟨label, .pubKeyHash, h⟩).toList
  | .scriptHash => ((s.hashAt? 2).map fun h => ⟨label, .scriptHash, h⟩).toList
  | .pubKey | .multisig =>
    match s.chunks with
    | .ok chunks => (keysIn chunks).map (CashAddress.ofKeyBytes label)
    | .error _ => []
  | .nullData | .nonstandard => []

/-- The address of the key that an unlocking script pushes second. -/
def payer? (label : String) (s : Script) : Option CashAddress :=
  match s.chunks with
  | .error _ => none
  | .ok chunks =>
    match (chunks.filterMap Chunk.data?)[1]? with
    | some (b :: key) => some (CashAddress.ofKeyBytes label (b :: key))
    | _ => none

end CashWallet.Script
