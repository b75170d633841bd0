import CashWallet.Text.Printable
import CashWallet.Text.Utf8

/-!
# `CashWallet/Hex.lean` — bytes written as hexadecimal digits

Two digits a byte, the high one first, written in lower case and read in either. Reading looks at
the UTF-8 bytes of the text, not at its characters, so positions and lengths count bytes and a
character outside ASCII is reported by the first of its bytes.

An odd number of bytes is looked for before any digit is, so a text that is odd **and** has a bad
digit is reported as odd. After that the first bad digit from the left is the one reported, with its
position. So an error is a function of the text, and `decode` on what `encode` wrote is the
identity; the other way round only the case of the digits is lost.

Writing comes in two forms: `encode` makes a text, and `encodeChars` the list of its characters,
which is what inductions on the bytes are about.
-/

set_option autoImplicit false

namespace CashWallet

/-- Why a text is not hexadecimal. The bad byte is kept as it stands in the text, with its
position. -/
inductive HexError
  | oddLength
  | badDigit (byte : UInt8) (position : Nat)
  deriving Repr, DecidableEq

/-- The bad byte is shown as the character with its number, in quotes and with its escapes, so that
a line break in the text does not break the message. -/
def HexError.message : HexError → String
  | .oddLength => "Odd number of digits"
  | .badDigit b i =>
    s!"Invalid character {Text.quoteChar (Char.ofNat b.toNat)} at position {i}"

namespace Hex

def digitChar (n : Nat) : Char :=
  if n < 10 then Char.ofNat (48 + n) else Char.ofNat (87 + n)

/-- The value of a digit, with letters in either case. -/
def digitValue? (b : UInt8) : Option Nat :=
  let n := b.toNat
  if 48 ≤ n ∧ n ≤ 57 then some (n - 48)
  else if 97 ≤ n ∧ n ≤ 102 then some (n - 87)
  else if 65 ≤ n ∧ n ≤ 70 then some (n - 55)
  else none

def encodeChars (b : Bytes) : List Char :=
  b.flatMap fun x => [digitChar (x.toNat / 16), digitChar (x.toNat % 16)]

def encode (b : Bytes) : String :=
  String.ofList (encodeChars b)

def digit (position : Nat) (b : UInt8) : Except HexError Nat :=
  match digitValue? b with
  | some v => .ok v
  | none => .error (.badDigit b position)

/-- Reads pairs of digit bytes, the first of which stands at the given position. -/
def decodePairs : Nat → Bytes → Except HexError Bytes
  | _, [] => .ok []
  | _, [_] => .error .oddLength
  | position, hi :: lo :: rest => do
    let h ← digit position hi
    let l ← digit (position + 1) lo
    let tail ← decodePairs (position + 2) rest
    .ok (UInt8.ofNat (16 * h + l) :: tail)

/-- The bytes that a string of digit bytes writes. An odd number of them is the first fault
looked for. -/
def decodeBytes (b : Bytes) : Except HexError Bytes :=
  if b.length % 2 = 1 then .error .oddLength else decodePairs 0 b

def decode (text : String) : Except HexError Bytes :=
  decodeBytes (Text.utf8 text)

end Hex

end CashWallet
