import CashWallet.Address.Groups
import CashWallet.Digest.Chain
import CashWallet.Hex
import CashWallet.Text.Printable
import CashWallet.Text.Utf8

/-!
# `CashWallet/Address/Basic.lean` — addresses and their text

An address is a label (the network it belongs to), a kind, and 20 bytes. Its text is the label, a
colon, and the payload: version and hash in groups of five bits, followed by eight groups of
checksum, each group as one letter of an alphabet of 32. **The checksum covers the label too**, of
which only the low five bits of each byte count, so an address for one network does not pass for one
on another.

Reading takes letters of either case, but not of both in one text, splits at the last colon, and
asks in a fixed order: letters, length, checksum, filling, length of the data, version. The first
fault in that order is the one that is reported, so a text with a wrong letter and a wrong checksum
is reported for its letter.

Reading puts the whole text into lower case first, the label included, and the label that comes out
is the lower one. The text of an address therefore comes back as it was only from a label without
upper-case letters and with something in it; the checksum is taken over the label as it is given, on
either way.

There is one version for each kind, and both say "20 bytes". Addresses for hashes of other sizes, or
with tokens, have versions of their own, and these are refused (`kindOf`).
-/

set_option autoImplicit false

namespace CashWallet

inductive AddressKind
  | pubKeyHash
  | scriptHash
  deriving Repr, DecidableEq

/-- The version byte of a kind: the kind in the high bits, and zero for a hash of 20 bytes. -/
def AddressKind.version : AddressKind → UInt8
  | pubKeyHash => 0x00
  | scriptHash => 0x08

/-- An address. The label is part of it, so that two addresses for one hash on two networks are
different. -/
structure CashAddress where
  label : String
  kind : AddressKind
  hash : Hash160
  deriving DecidableEq

inductive AddressError
  | invalidValue (group : UInt8)
  | invalidCharacter (c : Char)
  | mixedCase
  | missingLabel
  | invalidChecksum
  | invalidLength (length : Nat)
  | invalidPadding
  | unsupportedVersion (version : UInt8)
  deriving Repr, DecidableEq

def AddressError.message : AddressError → String
  | .invalidValue v => s!"value {v.toNat} does not fit the 5-bit alphabet"
  | .invalidCharacter c => s!"invalid character {Text.quoteChar c}"
  | .mixedCase => "address mixes upper and lower case"
  | .missingLabel => "address has no prefix separator"
  | .invalidChecksum => "checksum mismatch"
  | .invalidLength n => s!"invalid payload length {n}"
  | .invalidPadding => "non-zero padding bits"
  | .unsupportedVersion v => s!"unsupported version byte 0x{Hex.encode [v]}"

/-- The groups of a row in another size, or the first fault: a group that is too wide, or bits left
over that are no filling. -/
def Regroup.exact (source target : Nat) (groups : Bytes) : Except AddressError Bytes :=
  match tooWide? source groups with
  | some v => .error (.invalidValue v)
  | none =>
    let (out, last) := run source target ⟨0, 0⟩ groups
    if isFilling source last then .ok out else .error .invalidPadding

/-- The groups of a row in another size, with the last one filled up, or the first group that is too
wide. -/
def Regroup.filled (source target : Nat) (groups : Bytes) : Except AddressError Bytes :=
  match tooWide? source groups with
  | some v => .error (.invalidValue v)
  | none => .ok (padded source target groups)

namespace CashAddress

/-! ## The alphabet -/

/-- The letters in the order of their values. The letters that are left out are 1, b, i and o. -/
def alphabet : List Char :=
  "qpzry9x8gf2tvdw0s3jn54khce6mua7l".toList

/-- The letter of a group. Groups have five bits, so the default is never taken. -/
def letter (group : UInt8) : Char :=
  alphabet.getD group.toNat 'q'

/-- The value of a letter, which has to be in lower case here. -/
def group (c : Char) : Except AddressError UInt8 :=
  match alphabet.idxOf? c with
  | some i => .ok (UInt8.ofNat i)
  | none => .error (.invalidCharacter c)

def groups : List Char → Except AddressError Bytes
  | [] => .ok []
  | c :: rest =>
    match group c with
    | .error e => .error e
    | .ok v =>
      match groups rest with
      | .ok vs => .ok (v :: vs)
      | .error e => .error e

/-! ## Text -/

/-- The row over which the checksum is taken: the low five bits of the bytes of the label, a zero,
and the groups of the payload. -/
def checksumInput (label : String) (payload : Bytes) : Bytes :=
  (Text.utf8 label).map (· &&& 0x1f) ++ 0 :: payload

/-- Version and hash in groups of five bits, the last of them filled up. -/
def payloadGroups (a : CashAddress) : Bytes :=
  Regroup.padded 8 5 (a.kind.version :: a.hash.bytes)

def textGroups (a : CashAddress) : Bytes :=
  a.payloadGroups ++ Checksum.completion (checksumInput a.label a.payloadGroups)

def encode (a : CashAddress) : String :=
  String.ofList (a.label.toList ++ ':' :: a.textGroups.map letter)

/-- What stands before and behind the last colon, if there is one. -/
def splitLast? (cs : List Char) : Option (List Char × List Char) :=
  match cs.reverse.span (· != ':') with
  | (_, []) => none
  | (payload, _ :: label) => some (label.reverse, payload.reverse)

/-- The kind of a version, for the two versions that are known. -/
def kindOf (version : UInt8) : Except AddressError AddressKind :=
  if version = 0x00 then .ok .pubKeyHash
  else if version = 0x08 then .ok .scriptHash
  else .error (.unsupportedVersion version)

/-- The address of the bytes behind the label: one of version and twenty of the hash. -/
def ofData (label : String) (data : Bytes) : Except AddressError CashAddress :=
  match data with
  | [] => .error (.invalidLength 0)
  | version :: hash =>
    match Hash160.ofBytes? hash with
    | none => .error (.invalidLength (hash.length + 1))
    | some h =>
      match kindOf version with
      | .error e => .error e
      | .ok kind => .ok ⟨label, kind, h⟩

/-- The address of the groups behind the label. The last eight are the checksum, so there have to be
more than eight. -/
def ofGroups (label : String) (values : Bytes) : Except AddressError CashAddress :=
  if values.length ≤ 8 then .error (.invalidLength values.length)
  else if Checksum.polymod (checksumInput label values) ≠ 0 then .error .invalidChecksum
  else
    match Regroup.exact 5 8 (values.take (values.length - 8)) with
    | .error e => .error e
    | .ok data => ofData label data

def decodeLower (cs : List Char) : Except AddressError CashAddress :=
  match splitLast? cs with
  | none => .error .missingLabel
  | some (label, payload) =>
    if label.isEmpty then .error .missingLabel
    else
      match groups payload with
      | .error e => .error e
      | .ok values => ofGroups (String.ofList label) values

/-- Whether letters of both cases are in the text, its label included. -/
def isMixedCase (cs : List Char) : Bool :=
  cs.any Char.isLower && cs.any Char.isUpper

def decode (text : String) : Except AddressError CashAddress :=
  let cs := text.toList
  if isMixedCase cs then .error .mixedCase else decodeLower (cs.map Char.toLower)

/-- The address that pays to a serialised key. The bytes are hashed as they are, so the two forms
of a key have different addresses. -/
def ofKeyBytes (label : String) (key : Bytes) : CashAddress :=
  ⟨label, .pubKeyHash, .ofContent key⟩

end CashAddress

def mainLabel : String := "bitcoincash"

def testLabel : String := "bchtest"

end CashWallet
