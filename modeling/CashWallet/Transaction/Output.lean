import CashWallet.Script.LockClass
import CashWallet.Wire.Field

/-!
# `CashWallet/Transaction/Output.lean` — what a transaction pays, and tokens that ride on it

An output locks an amount, and possibly a token, to a script. The script is kept as it travels, with
the token in front, so that writing an output back loses nothing; the token and the first address
that the rest pays to are read off it and kept beside it.

**The lock is what stands behind a readable token.** When the token is not readable, the whole
script is the lock.

## Tokens

A locking script may begin with a token: a marker, the category, a byte of flags, and the fields
that the flags announce. What follows is the script that locks both the token and the coins. The
capability of a non-fungible token can be told from the flags; it is kept beside them, and a token
is consistent (`CashToken.IsConsistent`) when the two agree and no field is present that the flags
do not announce. Reading yields consistent tokens only, and of a token that is not consistent,
writing and reading back gives another.
-/

set_option autoImplicit false

/-! ## Tokens -/

namespace CashWallet

/-- What the holder of a token that is one of a kind may do with it. -/
inductive TokenCapability
  | immutable
  | mutable
  | minting
  deriving Repr, DecidableEq

/-- A token, with the capability that its flags announce beside them. -/
structure CashToken where
  category : Hash256
  flags : UInt8
  capability : Option TokenCapability
  commitment : Bytes
  amount : UInt64
  deriving DecidableEq

namespace TokenFlag

def amount : UInt8 := 0x10

def nonFungible : UInt8 := 0x20

def commitment : UInt8 := 0x40

def mutable : UInt8 := 0x01

/-- The flag of a token that can make others; it outranks the one before. -/
def minting : UInt8 := 0x02

def isSet (flags flag : UInt8) : Bool :=
  flags &&& flag != 0

/-- The capability that flags announce, if they announce a token that is one of a kind. -/
def capability? (flags : UInt8) : Option TokenCapability :=
  if !isSet flags nonFungible then none
  else if isSet flags minting then some .minting
  else if isSet flags mutable then some .mutable
  else some .immutable

end TokenFlag

namespace CashToken

/-- A token all of whose fields are as its flags say. -/
structure IsConsistent (t : CashToken) : Prop where
  capability : t.capability = TokenFlag.capability? t.flags
  commitment : TokenFlag.isSet t.flags TokenFlag.commitment = false → t.commitment = []
  amount : TokenFlag.isSet t.flags TokenFlag.amount = false → t.amount = 0

def isFungible (t : CashToken) : Bool :=
  TokenFlag.isSet t.flags TokenFlag.amount

def isNonFungible (t : CashToken) : Bool :=
  t.capability.isSome

/-- The token as it stands before a script. The flags are written as they are; commitment and amount
are written when they are announced. -/
def encode (t : CashToken) : Bytes :=
  Opcode.tokenMarker :: (t.category.bytes ++ t.flags ::
    ((if TokenFlag.isSet t.flags TokenFlag.commitment then varBytes t.commitment else []) ++
      (if TokenFlag.isSet t.flags TokenFlag.amount then VarInt.encode t.amount else [])))

def readFields : Reader ReadError CashToken := do
  let category ← Reader.hash256
  let flags ← Reader.byte
  let commitment ←
    if TokenFlag.isSet flags TokenFlag.commitment then Reader.varBytes else Reader.yield []
  let amount ← if TokenFlag.isSet flags TokenFlag.amount then Reader.varInt else Reader.yield 0
  return ⟨category, flags, TokenFlag.capability? flags, commitment, amount⟩

def read : Reader DecodeError CashToken := do
  let marker ← Reader.byte.fields
  if marker = Opcode.tokenMarker then readFields.fields else Reader.fail .missingTokenMarker

def split (script : Bytes) : Except DecodeError (CashToken × Bytes) :=
  match read script with
  | (.ok token, rest) => .ok (token, rest)
  | (.error e, _) => .error e

end CashToken

end CashWallet

/-! ## Outputs -/

namespace CashWallet

structure TxOutput where
  value : UInt64
  locking : Script
  token : Option CashToken
  address : Option CashAddress
  deriving DecidableEq

namespace TxOutput

/-- The token in front of a script and the first address that the rest pays to. A token that cannot
be read leaves neither. -/
def inspect (label : String) (locking : Script) : Option CashToken × Option CashAddress :=
  if locking.hasTokenMarker then
    match CashToken.split locking.bytes with
    | .ok (token, rest) => (some token, (Script.payees label ⟨rest⟩).head?)
    | .error _ => (none, none)
  else (none, (Script.payees label locking).head?)

def derive (label : String) (value : UInt64) (locking : Script) : TxOutput :=
  let (token, address) := inspect label locking
  ⟨value, locking, token, address⟩

def encode (o : TxOutput) : Bytes :=
  Bytes.ofNatLE 8 o.value.toNat ++ varBytes o.locking.bytes

def size (o : TxOutput) : Nat :=
  8 + VarInt.countWidth o.locking.size + o.locking.size

def read (label : String) : Reader ReadError TxOutput := do
  let value ← Reader.uint64
  let locking ← Reader.varBytes
  return derive label value ⟨locking⟩

/-- The script behind a token. -/
def spendingCondition (o : TxOutput) : Script :=
  match CashToken.split o.locking.bytes with
  | .ok (_, rest) => ⟨rest⟩
  | .error _ => o.locking

end TxOutput

end CashWallet
