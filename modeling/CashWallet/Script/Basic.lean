import CashWallet.Hex

/-!
# `CashWallet/Script/Basic.lean` — opcodes, and scripts as strings of bytes

A script sits in an output and says who may spend it, or in an input and says why it may. It is kept
as the bytes that travel, whatever they mean, so that **no script is ever changed by being read**;
the ways it can be read are modules of their own.

Each byte of a script is an opcode or belongs to the data of one. Only the opcodes that standard
scripts are recognised by have names of their own; the rest are called by their number. Small
numbers are opcodes too: `OP_0`, and `OP_1` to `OP_16`.

The opcodes up to 78 are pushes. Those up to 75 are the number of bytes that they push, the next
three have the number behind them, and `OP_0` pushes nothing at all. How the pushed data are found
is in `CashWallet/Script/Chunk.lean`.

Whatever can go wrong with a script, in reading or in writing one, is a `ScriptError`.
-/

set_option autoImplicit false

/-! ## Opcodes -/

namespace CashWallet.Opcode

def op0 : UInt8 := 0x00
def pushData1 : UInt8 := 0x4c
def pushData2 : UInt8 := 0x4d
def pushData4 : UInt8 := 0x4e
/-- Stands before the small numbers and is none of them. -/
def reserved : UInt8 := 0x50
def op1 : UInt8 := 0x51
def op16 : UInt8 := 0x60
def opIf : UInt8 := 0x63
def opNotIf : UInt8 := 0x64
/-- Counts as the opening of a conditional, as the two before do. -/
def opVerIf : UInt8 := 0x65
def opVerNotIf : UInt8 := 0x66
def opEndIf : UInt8 := 0x68
/-- Ends a script that is run. Outside of conditionals it makes the rest of it data. -/
def opReturn : UInt8 := 0x6a
def dup : UInt8 := 0x76
def equal : UInt8 := 0x87
def equalVerify : UInt8 := 0x88
def hash160 : UInt8 := 0xa9
def checkSig : UInt8 := 0xac
def checkMultisig : UInt8 := 0xae

/-- The byte before a token; no opcode has it. -/
def tokenMarker : UInt8 := 0xef

def smallInt? (op : UInt8) : Option Nat :=
  if op = op0 then some 0
  else if op1 ≤ op ∧ op ≤ op16 then some (op.toNat - 0x50)
  else none

def isSmallInt (op : UInt8) : Bool :=
  (smallInt? op).isSome

/-- Whether an opcode pushes something, be it nothing at all (`OP_0`). -/
def isPush (op : UInt8) : Bool :=
  op ≤ pushData4

/-- The opcode as it is written in text. A direct push is called by its length, an opcode without a
name by its number. -/
def name (op : UInt8) : String :=
  match op.toNat with
  | 0x00 => "OP_0"
  | 0x4c => "OP_PUSHDATA1"
  | 0x4d => "OP_PUSHDATA2"
  | 0x4e => "OP_PUSHDATA4"
  | 0x4f => "OP_1NEGATE"
  | 0x61 => "OP_NOP"
  | 0x63 => "OP_IF"
  | 0x64 => "OP_NOTIF"
  | 0x65 => "OP_VERIF"
  | 0x66 => "OP_VERNOTIF"
  | 0x67 => "OP_ELSE"
  | 0x68 => "OP_ENDIF"
  | 0x69 => "OP_VERIFY"
  | 0x6a => "OP_RETURN"
  | 0x76 => "OP_DUP"
  | 0x87 => "OP_EQUAL"
  | 0x88 => "OP_EQUALVERIFY"
  | 0xa9 => "OP_HASH160"
  | 0xaa => "OP_HASH256"
  | 0xac => "OP_CHECKSIG"
  | 0xad => "OP_CHECKSIGVERIFY"
  | 0xae => "OP_CHECKMULTISIG"
  | 0xaf => "OP_CHECKMULTISIGVERIFY"
  | 0xba => "OP_CHECKDATASIG"
  | n =>
    if 0x51 ≤ n ∧ n ≤ 0x60 then s!"OP_{n - 0x50}"
    else if n ≤ 75 then s!"OP_DATA_{n}"
    else s!"OP_UNKNOWN{n}"

end CashWallet.Opcode

/-! ## Scripts -/

namespace CashWallet

/-- A script, as it travels. -/
structure Script where
  bytes : Bytes
  deriving DecidableEq

/-- What can go wrong with a script. A part that is too big is named by its place. -/
inductive ScriptError
  | notHex (e : HexError)
  | pushAsOpcode (op : UInt8)
  | empty
  | notPubKeyHash
  | dataTooSmall
  | dataTooBig
  | partTooBig (index : Nat)
  deriving Repr, DecidableEq

def ScriptError.message : ScriptError → String
  | .notHex e => s!"invalid hex: {e.message}"
  | .pushAsOpcode op => s!"use append_push_data for push data opcodes: {Opcode.name op}"
  | .empty => "script is empty"
  | .notPubKeyHash => "not a P2PKH"
  | .dataTooSmall => "not enough data"
  | .dataTooBig => "data too big"
  | .partTooBig i => s!"part too big '{i}'"

namespace Script

def empty : Script := ⟨[]⟩

instance : Inhabited Script := ⟨empty⟩

def size (s : Script) : Nat :=
  s.bytes.length

/-- The script that a text of digits writes. Any bytes are a script. -/
def parse (text : String) : Except ScriptError Script :=
  match Hex.decode text with
  | .ok b => .ok ⟨b⟩
  | .error e => .error (.notHex e)

def toHex (s : Script) : String :=
  Hex.encode s.bytes

end Script

end CashWallet
