import CashWallet.Script.Spend
import CashWallet.Transaction.Basic

/-!
# `CashWallet/Transaction/Preimage.lean` — the bytes that a signature signs

A signature of an input commits to the transaction through one byte string: the version, a hash each
of all outputs spent, all sequence numbers and all outputs paid, and between them the spent output,
its script and its value. **What the type leaves out is a row of zeros in place of the hash**, so
every preimage has the same layout and each field stands at a place that can be found.

Unlocking scripts are nowhere in it: inputs can be signed one after the other. Nor is the locking
script of the spent output as such, but the script that the signer names (`code`), and its value
beside it, so that a signature made for another script or another amount is another one.

What is left out by which type, in the order of the fields:

* the outputs spent by the other inputs, when anyone may add inputs;
* the sequence numbers of the other inputs, then and whenever not all outputs are committed to;
* the outputs, by a type that commits to none, and all but one by a type that commits to the one at
  the index of the input. When there is no such output the field is zeros, as if none were meant.
-/

set_option autoImplicit false

namespace CashWallet.Tx

/-- The hash that stands for something left out. -/
def leftOut : Bytes :=
  List.replicate 32 0

def prevoutsHash (t : Tx) : Bytes :=
  Digest.sha256d (t.inputs.flatMap TxInput.outPointBytes)

def sequencesHash (t : Tx) : Bytes :=
  Digest.sha256d (t.inputs.flatMap fun i => Bytes.ofNatLE 4 i.sequence.toNat)

def outputsHash (outputs : List TxOutput) : Bytes :=
  Digest.sha256d (outputs.flatMap TxOutput.encode)

/-- Whether a type chooses all outputs. Any choice but the two others counts as this one. -/
def commitsToAll (type : UInt32) : Bool :=
  HashType.base type != HashType.single && HashType.base type != HashType.none

def committedPrevouts (t : Tx) (type : UInt32) : Bytes :=
  if HashType.isAnyoneCanPay type then leftOut else t.prevoutsHash

def committedSequences (t : Tx) (type : UInt32) : Bytes :=
  if !HashType.isAnyoneCanPay type && commitsToAll type then t.sequencesHash else leftOut

/-- The hash of the outputs that a type commits to at an input. -/
def committedOutputs (t : Tx) (index : Nat) (type : UInt32) : Bytes :=
  if commitsToAll type then outputsHash t.outputs
  else if HashType.base type = HashType.single then
    -- An input without an output at its index commits to no output at all.
    match t.outputs[index]? with
    | some o => outputsHash [o]
    | none => leftOut
  else leftOut

/-- The bytes that a signature signs, at an input that spends an output with the given script and
value. -/
def preimage (t : Tx) (index : Nat) (code : Bytes) (type : UInt32) (value : UInt64) :
    Except SighashError Bytes :=
  match t.inputs[index]? with
  | none => .error (.inputOutOfRange index t.inputs.length)
  | some i =>
    .ok (Bytes.ofNatLE 4 t.version.toNat ++
      t.committedPrevouts type ++ t.committedSequences type ++
      i.outPointBytes ++ varBytes code ++ Bytes.ofNatLE 8 value.toNat ++
      Bytes.ofNatLE 4 i.sequence.toNat ++ t.committedOutputs index type ++
      Bytes.ofNatLE 4 t.lockTime.toNat ++ Bytes.ofNatLE 4 type.toNat)

/-- What a signature signs: the double hash of the preimage. -/
def signatureHash (t : Tx) (index : Nat) (code : Bytes) (type : UInt32) (value : UInt64) :
    Except SighashError Bytes :=
  (t.preimage index code type value).map Digest.sha256d

def spendContext (t : Tx) : SpendContext where
  unlocking? index := t.inputs[index]?.map (·.unlocking)
  signatureHash index script value type :=
    match t.signatureHash index script.bytes type value with
    | .ok digest => .ok digest
    | .error e => .error (.noHash e)

end CashWallet.Tx
