import CashWallet.Text.Utf8
import CashWallet.Wire.Hash256

/-!
# `CashWallet/Wire/Field.lean` — the fields that messages are made of

Every message is a row of fields of a few kinds. A field knows how it is written (`Field.encode`),
and a kind of field knows how one is read (`FieldKind.read`); **reading the kind of a written field
gives the field back**, but for the zeros at the end of a text, which are padding. Numbers are
little-endian, except the port of a network address.

A field and its kind are two types, since a value is more than is needed to read one: to read a row
only the kinds are given. They differ in one place besides, plain bytes, which are written as they
are and are read by their number.

Writing never fails. Reading a single field fails with a `ReadError`, and reading a message with a
`DecodeError` and then yields nothing at all: a field cut short and a length that promises too much
come from the readers of fields (`DecodeError.ofRead`), and the rest is found by whoever puts fields
together. `Reader.fields` is the step from the one to the other.
-/

set_option autoImplicit false

/-! ## Fields -/

namespace CashWallet

/-- The text of a byte string without the zeros at its end. -/
def paddedText (b : Bytes) : String :=
  Text.ofUtf8Lossy (b.reverse.dropWhile (· == 0)).reverse

def varBytes (b : Bytes) : Bytes :=
  VarInt.ofCount b.length ++ b

/-- A text behind its length, which counts bytes and not characters. -/
def varText (s : String) : Bytes :=
  varBytes (Text.utf8 s)

namespace Reader

def uint16 : Reader ReadError UInt16 := do
  return UInt16.ofNat (← natLE 2)

/-- The port of a node, the only number of a message that is written the other way round. -/
def uint16BE : Reader ReadError UInt16 := do
  let b ← take 2
  return UInt16.ofNat (Bytes.toNatBE b)

def uint32 : Reader ReadError UInt32 := do
  return UInt32.ofNat (← natLE 4)

/-- A signed number is written as the unsigned one with the same bits. -/
def int32 : Reader ReadError Int32 := do
  return (← uint32).toInt32

def uint64 : Reader ReadError UInt64 := do
  return UInt64.ofNat (← natLE 8)

def int64 : Reader ReadError Int64 := do
  return (← uint64).toInt64

/-- A text behind its length, without padding. -/
def varText : Reader ReadError String := do
  return paddedText (← varBytes)

end Reader

inductive Field
  | uint8 (v : UInt8)
  | uint16 (v : UInt16)
  | uint16BE (v : UInt16)
  | uint32 (v : UInt32)
  | int32 (v : Int32)
  | uint64 (v : UInt64)
  | int64 (v : Int64)
  | varInt (v : UInt64)
  | bytes (b : Bytes)
  | varBytes (b : Bytes)
  | varText (s : String)
  | hash (h : Hash256)
  deriving DecidableEq

/-- A kind of field; plain bytes are read by their number. -/
inductive FieldKind
  | uint8
  | uint16
  | uint16BE
  | uint32
  | int32
  | uint64
  | int64
  | varInt
  | bytes (n : Nat)
  | varBytes
  | varText
  | hash
  deriving Repr, DecidableEq

namespace Field

def encode : Field → Bytes
  | uint8 v => [v]
  | uint16 v => Bytes.ofNatLE 2 v.toNat
  | uint16BE v => Bytes.ofNatBE 2 v.toNat
  | uint32 v => Bytes.ofNatLE 4 v.toNat
  | int32 v => Bytes.ofNatLE 4 v.toUInt32.toNat
  | uint64 v => Bytes.ofNatLE 8 v.toNat
  | int64 v => Bytes.ofNatLE 8 v.toUInt64.toNat
  | varInt v => VarInt.encode v
  | bytes b => b
  | varBytes b => CashWallet.varBytes b
  | varText s => CashWallet.varText s
  | hash h => h.bytes

/-- A row of fields, one behind the other and with nothing in between. -/
def encodeAll (fields : List Field) : Bytes :=
  fields.flatMap encode

def kind : Field → FieldKind
  | uint8 _ => .uint8
  | uint16 _ => .uint16
  | uint16BE _ => .uint16BE
  | uint32 _ => .uint32
  | int32 _ => .int32
  | uint64 _ => .uint64
  | int64 _ => .int64
  | varInt _ => .varInt
  | bytes b => .bytes b.length
  | varBytes _ => .varBytes
  | varText _ => .varText
  | hash _ => .hash

end Field

def FieldKind.read : FieldKind → Reader ReadError Field
  | uint8 => return .uint8 (← Reader.byte)
  | uint16 => return .uint16 (← Reader.uint16)
  | uint16BE => return .uint16BE (← Reader.uint16BE)
  | uint32 => return .uint32 (← Reader.uint32)
  | int32 => return .int32 (← Reader.int32)
  | uint64 => return .uint64 (← Reader.uint64)
  | int64 => return .int64 (← Reader.int64)
  | varInt => return .varInt (← Reader.varInt)
  | bytes n => return .bytes (← Reader.take n)
  | varBytes => return .varBytes (← Reader.varBytes)
  | varText => return .varText (← Reader.varText)
  | hash => return .hash (← Reader.hash256)

end CashWallet

/-! ## Why a message cannot be read -/

namespace CashWallet

/-- Why a message cannot be read. The numbers and bytes are those that the message names, as they
stand in it; a checksum is reported with the one that would have been right. -/
inductive DecodeError
  | truncated (needed available : Nat)
  | lengthMismatch (declared actual : Nat)
  | tooManyElements (count remaining : Nat)
  | tooManyTransactions (count remaining : Nat)
  | badHash (e : HashError)
  | badMagic (found : Bytes)
  | badChecksum (expected actual : Bytes)
  | missingTokenMarker
  | notHex (e : HexError)
  deriving Repr, DecidableEq

namespace DecodeError

/-- What goes wrong in a field, as it is reported of a message. -/
def ofRead : ReadError → DecodeError
  | .endOfData needed available => .truncated needed available
  | .lengthTooLarge declared available => .lengthMismatch declared available

/-- A text that is not hexadecimal is reported as such, whatever it was to be read as. -/
def ofHash : HashError → DecodeError
  | .notHex e => .notHex e
  | e => .badHash e

/-- Some bytes as a row of two-digit numbers. -/
def byteRow (b : Bytes) : String :=
  "[" ++ ", ".intercalate (b.map fun x => Hex.encode [x]) ++ "]"

/-- The reports of a message. Three of them speak of a malformed number, where it is a count or an
identifier that is wrong. -/
def message : DecodeError → String
  | truncated needed available => s!"truncated input: needed {needed} bytes, {available} available"
  | lengthMismatch declared actual =>
    s!"length mismatch: header says {declared} bytes, {actual} present"
  | tooManyElements count remaining =>
    s!"malformed varint: count {count} cannot fit in {remaining} remaining bytes"
  | tooManyTransactions count remaining =>
    s!"malformed varint: {count} transactions cannot fit in {remaining} bytes"
  | badHash e => s!"malformed varint: {e.message}"
  | badMagic found => s!"bad magic {byteRow found}"
  | badChecksum expected actual =>
    s!"bad checksum: expected {byteRow expected}, got {byteRow actual}"
  | missingTokenMarker => "missing CashToken marker"
  | notHex e => s!"invalid hex: {e.message}"

end DecodeError

/-- A reader of fields as part of a reader of messages. -/
def Reader.fields {α : Type} (r : Reader ReadError α) : Reader DecodeError α :=
  r.mapError DecodeError.ofRead

end CashWallet
