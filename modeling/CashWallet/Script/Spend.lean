import CashWallet.Curve.Suite
import CashWallet.Script.LockClass

/-!
# `CashWallet/Script/Spend.lean` — whether an input may spend an output

An executor is asked whether the unlocking script of an input satisfies the locking script of the
output it spends. All that it sees of the transaction is a `SpendContext`: the unlocking scripts and
the hashes to sign. The standard executor knows the two locks that one signature opens, to the hash
of a key and to a key; **for those it is a plain conjunction of conditions**, asked in a fixed order
of which the first that fails is reported.

Two words of bits go into the question. The number at the end of a signature says which parts of the
transaction it commits to (`HashType`): the low five bits choose the outputs (all, none, or the one
opposite the input), one bit leaves out the other inputs, and one bit sets the chain apart from
those that share its history. And the rules that a spend is held to are a set of flags
(`VerifyFlags`), each at the place that nodes give it. An executor asks for the rules it knows and
ignores the others: the standard one asks for three of the eleven.
-/

set_option autoImplicit false

/-! ## What a signature commits to -/

namespace CashWallet.HashType

def all : UInt32 := 0x01

def none : UInt32 := 0x02

/-- The signature commits to the output opposite its input. -/
def single : UInt32 := 0x03

/-- The bit that sets the chain apart. -/
def forkId : UInt32 := 0x40

/-- The bit that leaves out the other inputs. -/
def anyoneCanPay : UInt32 := 0x80

/-- The type of signatures that wallets make: all outputs, all inputs, this chain. -/
def allForkId : UInt32 := all ||| forkId

def base (t : UInt32) : UInt32 :=
  t &&& 0x1f

def isAnyoneCanPay (t : UInt32) : Bool :=
  t &&& anyoneCanPay != 0

def hasForkId (t : UInt32) : Bool :=
  t &&& forkId != 0

/-- Whether the type, apart from its two flags, chooses the outputs in one of the three ways. -/
def isStrict (t : UInt32) : Bool :=
  let rest := t &&& ~~~(forkId ||| anyoneCanPay)
  1 ≤ rest && rest ≤ 3

end CashWallet.HashType

namespace CashWallet

/-- Why there is nothing to sign: the transaction has no such input. -/
inductive SighashError
  | inputOutOfRange (index count : Nat)
  deriving Repr, DecidableEq

def SighashError.message : SighashError → String
  | .inputOutOfRange i n => s!"input index {i} out of range (tx has {n} inputs)"

end CashWallet

/-! ## The rules that a spend is held to -/

namespace CashWallet

/-- A set of rules that a spend is held to, one bit each. -/
structure VerifyFlags where
  bits : UInt32
  deriving Repr, DecidableEq

namespace VerifyFlags

def union (a b : VerifyFlags) : VerifyFlags := ⟨a.bits ||| b.bits⟩

def inter (a b : VerifyFlags) : VerifyFlags := ⟨a.bits &&& b.bits⟩

/-- Whether all rules of `b` are among those of `a`. -/
def has (a b : VerifyFlags) : Bool := a.bits &&& b.bits == b.bits

def payToScriptHash : VerifyFlags := ⟨0x1⟩
def strictEncoding : VerifyFlags := ⟨0x2⟩
def derSignatures : VerifyFlags := ⟨0x4⟩
def lowS : VerifyFlags := ⟨0x8⟩
def sigPushOnly : VerifyFlags := ⟨0x20⟩
def minimalData : VerifyFlags := ⟨0x40⟩
def cleanStack : VerifyFlags := ⟨0x100⟩
def checkLockTime : VerifyFlags := ⟨0x200⟩
def checkSequence : VerifyFlags := ⟨0x400⟩
def nullFail : VerifyFlags := ⟨0x4000⟩
def enableForkId : VerifyFlags := ⟨0x10000⟩

/-- The eleven rules that nodes hold a transaction to before they pass it on. -/
def standard : VerifyFlags :=
  [payToScriptHash, strictEncoding, derSignatures, lowS, sigPushOnly, minimalData, cleanStack,
    checkLockTime, checkSequence, nullFail, enableForkId].foldl union ⟨0⟩

end VerifyFlags

end CashWallet

/-! ## Executors -/

namespace CashWallet

inductive SpendError
  | missingInput (index : Nat)
  | notPushOnly
  | malformedScript (e : ScriptError)
  | wrongPushCount (expected got : Nat)
  | unsupported (lock : LockClass)
  | keyHashMismatch
  | missingForkId
  | invalidHashType (t : UInt32)
  | emptySignature
  | invalidSignature (e : SignatureError)
  | invalidKey (e : PublicKeyError)
  | noHash (e : SighashError)
  | signatureMismatch
  deriving Repr, DecidableEq

def SpendError.message : SpendError → String
  | .missingInput i => s!"input {i} does not exist"
  | .notPushOnly => "unlocking script is not push-only"
  | .malformedScript e => s!"malformed unlocking script: {e.message}"
  | .wrongPushCount expected got =>
    let noun := if expected = 1 then "push" else "pushes"
    s!"malformed unlocking script: expected {expected} {noun}, got {got}"
  | .unsupported lock => s!"script class {lock.name} is not supported by this executor"
  | .keyHashMismatch => "public key does not hash to the locked hash"
  | .missingForkId => "signature lacks the FORKID sighash bit"
  | .invalidHashType t =>
    "invalid sighash type 0x" ++ String.ofList (Nat.toDigits 16 t.toNat)
  | .emptySignature => "invalid signature encoding: empty signature"
  | .invalidSignature e => s!"invalid signature encoding: {e.message}"
  | .invalidKey e => s!"invalid public key: {e.message}"
  | .noHash e => s!"signature hash: {e.message}"
  | .signatureMismatch => "signature does not verify"

/-- What an executor sees of a transaction: the unlocking script of each input, and the hash that a
signature of an input over a script, a value and a type signs. -/
structure SpendContext where
  unlocking? : Nat → Option Script
  signatureHash : Nat → Script → UInt64 → UInt32 → Except SpendError Bytes

/-- Decides whether an input of a transaction may spend an output of the given value that is locked
by the given script, under the given rules. -/
abbrev Executor :=
  Script → SpendContext → Nat → UInt64 → VerifyFlags → Except SpendError Unit

namespace Executor

variable [KeySuite]

/-- Whether a signature with its type byte, and a key, open a lock. The type is looked at before the
signature is read, and both are read before anything is hashed. -/
def checkSignature (fullSignature key : Bytes) (locking : Script) (tx : SpendContext) (index : Nat)
    (value : UInt64) (flags : VerifyFlags) : Except SpendError Unit :=
  match fullSignature.reverse with
  | [] => .error .emptySignature
  | typeByte :: der =>
    let t := typeByte.toUInt32
    if flags.has .strictEncoding && !HashType.isStrict t then .error (.invalidHashType t)
    else if flags.has .enableForkId && !HashType.hasForkId t then .error .missingForkId
    else
      match Signature.ofDer? der.reverse with
      | .error e => .error (.invalidSignature e)
      | .ok signature =>
        match PublicKey.ofBytes? key with
        | .error e => .error (.invalidKey e)
        | .ok publicKey =>
          match tx.signatureHash index locking value t with
          | .error e => .error e
          | .ok digest =>
            if signature.verify digest publicKey then .ok () else .error .signatureMismatch

/-- The executor for locks that one signature opens. -/
def standard : Executor := fun locking tx index value flags =>
  match tx.unlocking? index with
  | none => .error (.missingInput index)
  | some unlocking =>
    match unlocking.chunks with
    | .error e => .error (.malformedScript e)
    | .ok chunks =>
      if flags.has .sigPushOnly && !chunks.all Chunk.isPush then .error .notPushOnly
      else
        let pushes := chunks.map fun c => c.data?.getD []
        match locking.classify with
        | .pubKeyHash =>
          match pushes with
          | [signature, key] =>
            if Digest.hash160 key ≠ (locking.bytes.drop 3).take 20 then .error .keyHashMismatch
            else checkSignature signature key locking tx index value flags
          | _ => .error (.wrongPushCount 2 pushes.length)
        | .pubKey =>
          match pushes with
          | [signature] =>
            let key := (locking.bytes.drop 1).take (locking.size - 2)
            checkSignature signature key locking tx index value flags
          | _ => .error (.wrongPushCount 1 pushes.length)
        | lock => .error (.unsupported lock)

end Executor

end CashWallet
