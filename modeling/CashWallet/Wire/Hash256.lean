import CashWallet.Digest.Chain
import CashWallet.Hex
import CashWallet.Wire.Reader

/-!
# `CashWallet/Wire/Hash256.lean` — identifiers of 32 bytes

Blocks, transactions and token categories are named by 32 bytes. They are compared and hashed in the
order in which they travel; **only as text are they turned around**, so that the digits which show
the work behind a block stand at the end. Text may leave out leading zeros, up to all of them.

The length is part of the type, so that an identifier that has been read or computed is written
without a check. What can go wrong when one is given by its bytes or as text is in `HashError`, and
a text fails in this order: it is too long, or it is not hexadecimal. A text of at most 64 digits
never fails by its length.

Identifiers have an order of their own, byte by byte as they travel, which is not the order of the
numbers they show as text.
-/

set_option autoImplicit false

namespace CashWallet

/-- An identifier of 32 bytes, in the order in which it travels. -/
structure Hash256 where
  bytes : Bytes
  length_bytes : bytes.length = 32
  deriving DecidableEq

inductive HashError
  | wrongLength (length : Nat)
  | textTooLong
  | notHex (e : HexError)
  deriving Repr, DecidableEq

def HashError.message : HashError → String
  | .wrongLength n => s!"invalid hash: invalid hash length of {n}, want 32"
  | .textTooLong => "invalid hash: max hash string length is 64 characters"
  | .notHex e => s!"invalid hex: {e.message}"

namespace Hash256

/-- The identifier that names nothing: the input of a first transaction spends it. -/
def zero : Hash256 :=
  ⟨List.replicate 32 0, by simp⟩

instance : Inhabited Hash256 := ⟨zero⟩

def ofContent (content : Bytes) : Hash256 :=
  ⟨Digest.sha256d content, Digest.length_sha256d content⟩

def ofBytes? (b : Bytes) : Except HashError Hash256 :=
  if h : b.length = 32 then .ok ⟨b, h⟩ else .error (.wrongLength b.length)

def reverse (h : Hash256) : Hash256 :=
  ⟨h.bytes.reverse, by simp [h.length_bytes]⟩

def isZero (h : Hash256) : Bool :=
  h.bytes.all (· == 0)

/-- The identifier as text, last byte first. -/
def display (h : Hash256) : String :=
  Hex.encode h.bytes.reverse

/-- The identifier that a text of at most 64 digits shows. A missing digit of the first byte and
missing bytes are zeros. -/
def parse (text : String) : Except HashError Hash256 :=
  let digits := Text.utf8 text
  if digits.length > 64 then .error .textTooLong
  else
    -- A digit that is missing is the high one of the first byte.
    match Hex.decodeBytes (if digits.length % 2 = 1 then 0x30 :: digits else digits) with
    | .error e => .error (.notHex e)
    | .ok b => ofBytes? (Bytes.padLeft 32 b).reverse

/-- The order of identifiers: the first byte that differs decides. -/
def le (a b : Hash256) : Bool :=
  decide (a.bytes ≤ b.bytes)

/-- Identifiers in their order, equal ones kept. -/
def sort (hs : List Hash256) : List Hash256 :=
  hs.mergeSort le

end Hash256

/-- An identifier in a message. It is read as bytes, so that nothing but the end of the message can
stop it. -/
def Reader.hash256 : Reader ReadError Hash256 := do
  let b ← fixed 32
  return ⟨b.bytes, b.length_bytes⟩

end CashWallet
