import CashWallet.Json.Record
import CashWallet.Wallet.Amount
import CashWallet.Wallet.Basic

/-!
# `CashWallet/Wallet/TxRecord.lean` — transactions as a front end sees them

A front end works with records: scripts and hashes as digits, amounts as signed numbers, and beside
what travels the amounts that are spent, the scripts that locked them, and some bookkeeping. A
record becomes a transaction (`TxRecord.toTx`) and a transaction a record (`TxRecord.ofTx`); **what
is signed and hashed survives both ways**, what does not travel is empty in a record made from a
transaction.

A missing member of a record has its default; no record is incomplete. A member that is there has to
fit its type, and one that does not makes the record unreadable.

Amounts are signed in a record and unsigned in a transaction. So an output of a record may be
negative, which no transaction can have, and an output of a transaction may be too large for a
record. Both are errors, on the way in and on the way out (`RecordFault`). The version is signed in
a record too, and there it has the same bits on either side.

The totals of a record are its own: they are not looked at when it becomes a transaction, and are
reckoned anew when it is made from one (`TxRecord.setTotals`).
-/

set_option autoImplicit false

namespace CashWallet

/-- An input as a front end sees it. -/
structure InputRecord where
  sequence : UInt32
  value : Int64
  prevHash : String
  prevIndex : UInt32
  pubScript : String
  signature : String
  address : Option String
  deriving DecidableEq

/-- An output as a front end sees it; whether it has been spent is bookkeeping. -/
structure OutputRecord where
  value : Int64
  spent : Bool
  pkScript : String
  address : String
  deriving DecidableEq

structure TxRecord where
  hash : String
  dateTime : Int64
  size : Int32
  height : Int32
  index : Int32
  version : Int32
  lockTime : UInt32
  inputs : List InputRecord
  outputs : List OutputRecord
  inputVal : Int64
  outputVal : Int64
  cashBack : Int64
  networkFee : Int64
  deriving DecidableEq

/-- An output that a front end means to spend. -/
structure CoinRecord where
  hash : String
  index : Int32
  pkScript : String
  value : Int64
  deriving DecidableEq

open JsonValue

namespace InputRecord

def ofJson? (v : JsonValue) : Option InputRecord := do
  match ← v.fields? ["sequence", "value", "prevHash", "prevIndex", "pubScript", "signature",
      "address"] with
  | [sequence, value, prevHash, prevIndex, pubScript, signature, address] =>
    return {
      sequence := ← orElse 0 asUInt32 sequence
      value := ← orElse 0 asInt64 value
      prevHash := ← orElse "" asString prevHash
      prevIndex := ← orElse 0 asUInt32 prevIndex
      pubScript := ← orElse "" asString pubScript
      signature := ← orElse "" asString signature
      address := ← orElse none asOptionalString address }
  | _ => none

/-- The input as a value; an address that is not known is left out. -/
def toJson (i : InputRecord) : JsonValue :=
  .object ([("sequence", .integer i.sequence.toNat), ("value", .integer i.value.toInt),
    ("prevHash", .string i.prevHash), ("prevIndex", .integer i.prevIndex.toNat),
    ("pubScript", .string i.pubScript), ("signature", .string i.signature)] ++
    match i.address with
    | some a => [("address", .string a)]
    | none => [])

/-- The amount that an input spends, which must not be negative. -/
def spentValue (index : Nat) (i : InputRecord) : Except WalletError UInt64 :=
  if i.value < 0 then .error (.invalidTransaction (.negativeSpent index i.value))
  else .ok i.value.toUInt64

/-- The input that a record describes. What is spent, its script and its address have no part in
it. -/
def toInput (label : String) (i : InputRecord) : Except WalletError TxInput :=
  match Script.parse i.signature with
  | .error e => .error (.script e)
  | .ok unlocking =>
    match Hash256.parse i.prevHash with
    | .error e => .error (.hash e)
    | .ok prevHash => .ok (.derive label prevHash i.prevIndex unlocking i.sequence)

/-- The record of an input that travels. What is spent is not known. -/
def ofInput (i : TxInput) : InputRecord where
  sequence := i.sequence
  value := 0
  prevHash := i.prevHash.display
  prevIndex := i.prevIndex
  pubScript := ""
  signature := i.unlocking.toHex
  address := i.address.map CashAddress.encode

end InputRecord

namespace OutputRecord

def ofJson? (v : JsonValue) : Option OutputRecord := do
  match ← v.fields? ["value", "spent", "pkScript", "address"] with
  | [value, spent, pkScript, address] =>
    return {
      value := ← orElse 0 asInt64 value
      spent := ← orElse false asBool spent
      pkScript := ← orElse "" asString pkScript
      address := ← orElse "" asString address }
  | _ => none

def toJson (o : OutputRecord) : JsonValue :=
  .object [("value", .integer o.value.toInt), ("spent", .bool o.spent),
    ("pkScript", .string o.pkScript), ("address", .string o.address)]

/-- The output that a record describes, whose value must not be negative. -/
def toOutput (label : String) (o : OutputRecord) : Except WalletError TxOutput :=
  if o.value < 0 then .error (.invalidTransaction (.negativeOutput o.value))
  else
    match Script.parse o.pkScript with
    | .error e => .error (.script e)
    | .ok locking => .ok (.derive label o.value.toUInt64 locking)

/-- The record of an output that travels, whose value must fit a signed number. -/
def ofOutput (o : TxOutput) : Except WalletError OutputRecord :=
  if Int64.maxValue.toInt < o.value.toNat then
    .error (.invalidTransaction (.outputOutOfRange o.value))
  else .ok {
    value := o.value.toInt64
    spent := false
    pkScript := o.locking.toHex
    address := (o.address.map CashAddress.encode).getD "" }

end OutputRecord

namespace TxRecord

def empty : TxRecord where
  hash := ""
  dateTime := 0
  size := 0
  height := 0
  index := 0
  version := 1
  lockTime := 0
  inputs := []
  outputs := []
  inputVal := 0
  outputVal := 0
  cashBack := 0
  networkFee := 0

instance : Inhabited TxRecord := ⟨empty⟩

/-! ## As JSON -/

def ofJson? (v : JsonValue) : Option TxRecord := do
  match ← v.fields? ["hash", "dateTime", "size", "height", "index", "version", "lockTime", "inputs",
      "outputs", "inputVal", "outputVal", "cashBack", "networkFee"] with
  | [hash, dateTime, size, height, index, version, lockTime, inputs, outputs, inputVal, outputVal,
      cashBack, networkFee] =>
    return {
      hash := ← orElse "" asString hash
      dateTime := ← orElse 0 asInt64 dateTime
      size := ← orElse 0 asInt32 size
      height := ← orElse 0 asInt32 height
      index := ← orElse 0 asInt32 index
      version := ← orElse 1 asInt32 version
      lockTime := ← orElse 0 asUInt32 lockTime
      inputs := ← orElse [] (asList InputRecord.ofJson?) inputs
      outputs := ← orElse [] (asList OutputRecord.ofJson?) outputs
      inputVal := ← orElse 0 asInt64 inputVal
      outputVal := ← orElse 0 asInt64 outputVal
      cashBack := ← orElse 0 asInt64 cashBack
      networkFee := ← orElse 0 asInt64 networkFee }
  | _ => none

def toJson (t : TxRecord) : JsonValue :=
  .object [("hash", .string t.hash), ("dateTime", .integer t.dateTime.toInt),
    ("size", .integer t.size.toInt), ("height", .integer t.height.toInt),
    ("index", .integer t.index.toInt), ("version", .integer t.version.toInt),
    ("lockTime", .integer t.lockTime.toNat), ("inputs", .array (t.inputs.map InputRecord.toJson)),
    ("outputs", .array (t.outputs.map OutputRecord.toJson)),
    ("inputVal", .integer t.inputVal.toInt), ("outputVal", .integer t.outputVal.toInt),
    ("cashBack", .integer t.cashBack.toInt), ("networkFee", .integer t.networkFee.toInt)]

/-- The record that a text is. What is wrong with one that is none is not told. -/
def parse (text : String) : Except WalletError TxRecord :=
  match (JsonValue.parse text).bind ofJson? with
  | some t => .ok t
  | none => .error .json

def render (t : TxRecord) : String :=
  t.toJson.compact

/-! ## Totals -/

/-- A number that was reckoned, or the failure that it was not. -/
def reckoned (fault : RecordFault) : Option Int64 → EStateM WalletError TxRecord Int64
  | some v => pure v
  | none => throw (.invalidTransaction fault)

theorem run_reckoned_some (fault : RecordFault) (v : Int64) (t : TxRecord) :
    (reckoned fault (some v)).run t = .ok v t :=
  rfl

theorem run_reckoned_none (fault : RecordFault) (t : TxRecord) :
    (reckoned fault none).run t = .error (.invalidTransaction fault) t :=
  rfl

/-- Reckons the totals and the fee of a record anew, and sets them. All of them are reckoned before
the first is set. -/
def setTotals : EStateM WalletError TxRecord Unit := do
  let t ← get
  let inputVal ← reckoned .inputTotalOutOfRange (checkedSum? 0 (t.inputs.map (·.value)))
  let outputVal ← reckoned .outputTotalOutOfRange (checkedSum? 0 (t.outputs.map (·.value)))
  let networkFee ← reckoned .feeOutOfRange (fee? inputVal outputVal)
  modify fun t => { t with inputVal }
  modify fun t => { t with outputVal }
  modify fun t => { t with networkFee }

/-- The record with its totals and its fee reckoned anew. -/
def updateTotals (t : TxRecord) : Except WalletError TxRecord :=
  match setTotals.run t with
  | .ok () updated => .ok updated
  | .error e _ => .error e

/-! ## What travels -/

/-- The transaction that a record describes, with addresses under a label. -/
def toTx (label : String) (t : TxRecord) : Except WalletError Tx :=
  match t.inputs.mapM (InputRecord.toInput label) with
  | .error e => .error e
  | .ok inputs =>
    match t.outputs.mapM (OutputRecord.toOutput label) with
    | .error e => .error e
    | .ok outputs => .ok (.build label t.version.toUInt32 inputs outputs t.lockTime)

def ofTx (w : Tx) : Except WalletError TxRecord :=
  match w.outputs.mapM OutputRecord.ofOutput with
  | .error e => .error e
  | .ok outputs =>
    updateTotals { empty with
      hash := w.hash.display
      size := Int32.ofNat w.size
      version := w.version.toInt32
      lockTime := w.lockTime
      inputs := w.inputs.map InputRecord.ofInput
      outputs }

def ofHex (text : String) : Except WalletError TxRecord :=
  match Tx.parse text with
  | .error e => .error (.decode e)
  | .ok w => ofTx w

end TxRecord

namespace CoinRecord

def ofJson? (v : JsonValue) : Option CoinRecord := do
  match ← v.fields? ["hash", "index", "pkScript", "value"] with
  | [hash, index, pkScript, value] =>
    return {
      hash := ← orElse "" asString hash
      index := ← orElse 0 asInt32 index
      pkScript := ← orElse "" asString pkScript
      value := ← orElse 0 asInt64 value }
  | _ => none

def toJson (c : CoinRecord) : JsonValue :=
  .object [("hash", .string c.hash), ("index", .integer c.index.toInt),
    ("pkScript", .string c.pkScript), ("value", .integer c.value.toInt)]

def parse? (text : String) : Option CoinRecord :=
  (JsonValue.parse text).bind ofJson?

def toInputRecord (c : CoinRecord) : Except WalletError InputRecord :=
  if c.index < 0 then .error (.invalidTransaction (.negativeIndex c.index))
  else .ok {
    sequence := TxInput.finalSequence
    value := c.value
    prevHash := c.hash
    prevIndex := c.index.toUInt32
    pubScript := c.pkScript
    signature := ""
    address := none }

end CoinRecord

end CashWallet
