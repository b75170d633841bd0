import CashWallet.Script.Chunk
import CashWallet.Wallet.Basic
import CashWallet.Wallet.TxRecord

/-!
# `CashWallet/Wallet/Signing.lean` — signing and validating

The wallet signs every input that its one key can open: locked to the hash of a key, or to a key. It
goes through the inputs in order and stops at the first it cannot make sense of; **what was signed
before stays signed**, so a failed signing leaves a record behind too. Inputs with another lock are
passed over, and then the record counts as partly signed.

When all are signed, the record is named and measured, and an executor is asked about every input.
Which lock is opened is decided by its shape and not by whose it is: a lock to the hash of another
key is signed as well, and it is the executor that refuses it. So signing says "partly signed" of a
lock that no single key opens, and "failed validation" of one that another key does.

The transaction that is signed and the one that is checked are made anew from the record, the first
under the label of the network and the second under that of the main network. The label has no part
in what is signed.
-/

set_option autoImplicit false

namespace CashWallet

/-- A record as it stands after an attempt, and how the attempt went. -/
structure Attempt where
  record : TxRecord
  result : Except WalletError Unit

/-- Asks the executor about the inputs from an index on, under the standard rules. What the executor
finds is not passed on. -/
def checkInputs (executor : Executor) (tx : Tx) : Nat → List InputRecord → Except WalletError Unit
  | _, [] => .ok ()
  | index, input :: rest =>
    match Script.parse input.pubScript with
    | .error e => .error (.script e)
    | .ok locking =>
      match input.spentValue index with
      | .error e => .error e
      | .ok value =>
        match executor locking tx.spendContext index value .standard with
        | .error _ => .error .validationFailed
        | .ok () => checkInputs executor tx (index + 1) rest

def TxRecord.validate (executor : Executor) (t : TxRecord) : Except WalletError Unit :=
  match t.toTx mainLabel with
  | .error e => .error e
  | .ok tx => checkInputs executor tx 0 t.inputs

namespace Signing

variable [KeySuite]

/-- Whether a lock is one that a signature alone, or with its key, opens. -/
def isSignable (lock : LockClass) : Bool :=
  lock == .pubKeyHash || lock == .pubKey

/-- What opens a lock: the signature with the byte of its type, and behind it the key where the lock
has only its hash. -/
def unlockingBytes (lock : LockClass) (signature : Signature) (key : PublicKey) :
    Except ScriptError Bytes :=
  let full := signature.toDer ++ [HashType.allForkId.toUInt8]
  if lock = .pubKeyHash then encodePushes [full, key.compressed] else encodePushes [full]

/-- The bytes that open an input, or nothing when its lock is none that one signature opens. -/
def openInput (key : PrivateKey) (tx : Tx) (index : Nat) (input : InputRecord) :
    Except WalletError (Option Bytes) :=
  if input.pubScript.isEmpty then .error (.emptyScript index)
  else
    match Script.parse input.pubScript with
    | .error e => .error (.script e)
    | .ok locking =>
      if !isSignable locking.classify then .ok none
      else
        match input.spentValue index with
        | .error e => .error e
        | .ok value =>
          match tx.signatureHash index locking.bytes HashType.allForkId value with
          | .error e => .error (.sighash e)
          | .ok digest =>
            match key.sign digest with
            | .error e => .error (.signature e)
            | .ok signature =>
              match unlockingBytes locking.classify signature key.publicKey with
              | .error e => .error (.script e)
              | .ok bytes => .ok (some bytes)

/-- What signing makes of some inputs: the inputs, the transaction with their unlocking scripts, and
whether all of them were signed, or the failure at which it stopped. -/
structure Progress where
  inputs : List InputRecord
  tx : Tx
  result : Except WalletError Bool

/-- Signs the inputs from an index on, in the record and in the transaction side by side. -/
def signInputs (key : PrivateKey) : Tx → Nat → List InputRecord → Progress
  | tx, _, [] => ⟨[], tx, .ok true⟩
  | tx, index, input :: rest =>
    match openInput key tx index input with
    | .error e => ⟨input :: rest, tx, .error e⟩
    -- One lock that is passed over makes the whole record partly signed.
    | .ok none =>
      let p := signInputs key tx (index + 1) rest
      ⟨input :: p.inputs, p.tx, p.result.map fun _ => false⟩
    | .ok (some bytes) =>
      let signed := { input with signature := Hex.encode bytes }
      let tx := ((tx.setUnlocking? index ⟨bytes⟩).map Prod.fst).getD tx
      let p := signInputs key tx (index + 1) rest
      ⟨signed :: p.inputs, p.tx, p.result⟩

def signWith (executor : Executor) (key : PrivateKey) (label : String) (t : TxRecord) : Attempt :=
  match t.toTx label with
  | .error e => ⟨t, .error e⟩
  | .ok tx =>
    let p := signInputs key tx 0 t.inputs
    let signed := { t with inputs := p.inputs }
    match p.result with
    | .error e => ⟨signed, .error e⟩
    | .ok false => ⟨signed, .error .partiallySigned⟩
    | .ok true =>
      -- Name and size are those of the transaction with all its unlocking scripts.
      let named := { signed with hash := p.tx.hash.display, size := Int32.ofNat p.tx.size }
      ⟨named, named.validate executor⟩

def sign (executor : Executor) (mnemonic : String) (config : WalletConfig) (t : TxRecord) :
    Attempt :=
  match Wallet.signingKey mnemonic config with
  | .error e => ⟨t, .error e⟩
  | .ok key => signWith executor key config.network.label t

end Signing

end CashWallet
