import CashWallet.Transaction.Output

/-!
# `CashWallet/Transaction/Basic.lean` — transactions

A transaction spends inputs and pays outputs. It is named by the double hash of its bytes, which is
kept with it: **every way to make or change a transaction takes the hash anew**, and reading takes
it over the bytes that were read.

An input names an output of an earlier transaction and shows why it may be spent. The address of
whoever spends it is not part of what travels; it is read off the unlocking script under the label
that the transaction was made with, and kept beside it.

Counts are checked before anything is read: a count whose elements, at their smallest, need more
bytes than there are is refused, so that a few bytes from a stranger cannot ask for memory
(`Reader.elementCount`).

The size of a transaction is reckoned twice. `size` is exact. `estimatedSignedSize` is what a fee is
reckoned from before there are signatures; it takes every count and length to be written in two
bytes and allows a fixed number of bytes for each unlocking script.
-/

set_option autoImplicit false

/-! ## Inputs -/

namespace CashWallet

/-- The place of an output: the transaction that pays it, and its index there. -/
structure OutPoint where
  hash : Hash256
  index : UInt32
  deriving DecidableEq

structure TxInput where
  prevHash : Hash256
  prevIndex : UInt32
  unlocking : Script
  sequence : UInt32
  address : Option CashAddress
  deriving DecidableEq

namespace TxInput

def finalSequence : UInt32 := 0xffffffff

def unsigned (prevHash : Hash256) (prevIndex : UInt32) : TxInput :=
  ⟨prevHash, prevIndex, .empty, finalSequence, none⟩

def outPoint (i : TxInput) : OutPoint :=
  ⟨i.prevHash, i.prevIndex⟩

/-- An input with the address that its unlocking script shows. -/
def derive (label : String) (prevHash : Hash256) (prevIndex : UInt32) (unlocking : Script)
    (sequence : UInt32) : TxInput :=
  ⟨prevHash, prevIndex, unlocking, sequence, unlocking.payer? label⟩

/-- The output that is spent, as it travels. -/
def outPointBytes (i : TxInput) : Bytes :=
  i.prevHash.bytes ++ Bytes.ofNatLE 4 i.prevIndex.toNat

/-- The bytes of an input. Its address is not among them. -/
def encode (i : TxInput) : Bytes :=
  i.outPointBytes ++ varBytes i.unlocking.bytes ++ Bytes.ofNatLE 4 i.sequence.toNat

def size (i : TxInput) : Nat :=
  32 + 4 + VarInt.countWidth i.unlocking.size + i.unlocking.size + 4

/-- Reads an input and the address that its unlocking script shows. -/
def read (label : String) : Reader ReadError TxInput := do
  let prevHash ← Reader.hash256
  let prevIndex ← Reader.uint32
  let unlocking ← Reader.varBytes
  let sequence ← Reader.uint32
  return derive label prevHash prevIndex ⟨unlocking⟩ sequence

end TxInput

end CashWallet

/-! ## Transactions -/

namespace CashWallet

/-- Reads a count of elements that take at least `least` bytes each. -/
def Reader.elementCount (least : Nat) : Reader DecodeError Nat := do
  let count ← Reader.varInt.fields
  let available ← Reader.remaining
  if available / least < count.toNat then Reader.fail (.tooManyElements count.toNat available)
  else return count.toNat

/-- A transaction, its name, and the label under which addresses of its inputs are shown. -/
structure Tx where
  version : UInt32
  inputs : List TxInput
  outputs : List TxOutput
  lockTime : UInt32
  hash : Hash256
  label : String
  deriving DecidableEq

namespace Tx

def encodeParts (version : UInt32) (inputs : List TxInput) (outputs : List TxOutput)
    (lockTime : UInt32) : Bytes :=
  Bytes.ofNatLE 4 version.toNat ++
    VarInt.ofCount inputs.length ++ inputs.flatMap TxInput.encode ++
    VarInt.ofCount outputs.length ++ outputs.flatMap TxOutput.encode ++
    Bytes.ofNatLE 4 lockTime.toNat

def encode (t : Tx) : Bytes :=
  encodeParts t.version t.inputs t.outputs t.lockTime

/-- A transaction made of its parts, with the name of these bytes. -/
def build (label : String) (version : UInt32) (inputs : List TxInput) (outputs : List TxOutput)
    (lockTime : UInt32) : Tx :=
  ⟨version, inputs, outputs, lockTime,
    .ofContent (encodeParts version inputs outputs lockTime), label⟩

def empty : Tx :=
  build mainLabel 1 [] [] 0

/-! ## Reading -/

/-- The fewest bytes that an input takes: its script may be empty. -/
def leastInput : Nat := 32 + 4 + 1 + 4

def leastOutput : Nat := 8 + 1

/-- Reads what travels of a transaction, each count before its elements. -/
def readParts (label : String) :
    Reader DecodeError (UInt32 × List TxInput × List TxOutput × UInt32) := do
  let version ← Reader.uint32.fields
  let inputCount ← Reader.elementCount leastInput
  let inputs ← ((TxInput.read label).times inputCount).fields
  let outputCount ← Reader.elementCount leastOutput
  let outputs ← ((TxOutput.read label).times outputCount).fields
  let lockTime ← Reader.uint32.fields
  return (version, inputs, outputs, lockTime)

/-- Reads a transaction; its name is taken over the bytes that are read. -/
def read (label : String) : Reader DecodeError Tx := do
  let start ← Reader.peek
  let (version, inputs, outputs, lockTime) ← readParts label
  let left ← Reader.remaining
  return ⟨version, inputs, outputs, lockTime, .ofContent (start.take (start.length - left)), label⟩

/-- The transaction that a byte string is, with nothing behind it. Addresses are shown under the
label of the main network. -/
def decode (b : Bytes) : Except DecodeError Tx :=
  match read mainLabel b with
  | (.error e, _) => .error e
  | (.ok t, rest) =>
    if rest.isEmpty then .ok t else .error (.lengthMismatch (b.length - rest.length) b.length)

def parse (text : String) : Except DecodeError Tx :=
  match Hex.decode text with
  | .ok b => decode b
  | .error e => .error (.notHex e)

/-! ## Sizes and sums -/

def size (t : Tx) : Nat :=
  4 + VarInt.countWidth t.inputs.length + t.inputs.foldr (fun i n => i.size + n) 0 +
    VarInt.countWidth t.outputs.length + t.outputs.foldr (fun o n => o.size + n) 0 + 4

/-- What is allowed for an unlocking script that is still to come. -/
def scriptAllowance : Nat := 100

def changeAllowance : Nat := 8 + 2 + 32

/-- How large the signed transaction is taken to be when a fee is reckoned. An input counts twice
the allowance for its script, whatever script it has. -/
def estimatedSignedSize (t : Tx) (includeChange : Bool) : Nat :=
  4 + 2 + t.inputs.length * (scriptAllowance + 4 + 32) + 2 +
    t.outputs.foldr (fun o n => 8 + 2 + o.locking.size + n) 0 + 4 +
    t.inputs.length * scriptAllowance + (if includeChange then changeAllowance else 0)

def outputTotal (t : Tx) : Nat :=
  t.outputs.foldr (fun o n => o.value.toNat + n) 0

def outputTotal? (t : Tx) : Option UInt64 :=
  if t.outputTotal < UInt64.size then some (UInt64.ofNat t.outputTotal) else none

/-- Whether the transaction makes coins and does not spend any. -/
def isCoinbase (t : Tx) : Bool :=
  match t.inputs with
  | [i] => i.prevHash.isZero && i.prevIndex == 0xffffffff
  | _ => false

/-! ## Changes -/

def rebuilt (t : Tx) (inputs : List TxInput) (outputs : List TxOutput) : Tx :=
  build t.label t.version inputs outputs t.lockTime

/-- The transaction with another unlocking script at an input, and the script that was there;
nothing when there is no such input. -/
def setUnlocking? (t : Tx) (index : Nat) (script : Script) : Option (Tx × Script) :=
  match t.inputs[index]? with
  | none => none
  | some i =>
    let changed : TxInput := { i with unlocking := script, address := script.payer? t.label }
    some (t.rebuilt (t.inputs.set index changed) t.outputs, i.unlocking)

def pushOutput (t : Tx) (o : TxOutput) : Tx :=
  t.rebuilt t.inputs (t.outputs ++ [o])

end Tx

end CashWallet
