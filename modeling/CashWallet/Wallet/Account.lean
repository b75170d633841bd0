import CashWallet.Json.Record
import CashWallet.Wallet.ExtendedKey

/-!
# `CashWallet/Wallet/Account.lean` — accounts and their addresses

From the root to an address the path has five steps: purpose, coin, account, the side (receiving or
change) and the place. The first three are hardened when the root has its private key; the last two
never are, so that **an account without its private key shows the same addresses** as with it. The
path that was walked is kept with the address, hardened numbers and all.

A path is kept in two parts, since an account is made once and its addresses many times. The first
part says how the account was reached: its numbers are hardened or not, as they were walked. The
second part is never hardened, and a place that would be is refused before anything is derived.

Both parts are exchanged as records, in which every step has to be given.
-/

set_option autoImplicit false

namespace CashWallet

/-- The steps from the root to an account, as they were walked. -/
structure StartPath where
  purpose : UInt32
  coinType : UInt32
  account : UInt32
  deriving Repr, DecidableEq

structure EndPath where
  change : UInt32
  index : UInt32
  deriving Repr, DecidableEq

namespace StartPath

def ofJson? (v : JsonValue) : Option StartPath := do
  match ← v.fields? ["purpose_index", "coin_type", "account_index"] with
  | [purpose, coinType, account] =>
    return ⟨← JsonValue.required JsonValue.asUInt32 purpose,
      ← JsonValue.required JsonValue.asUInt32 coinType,
      ← JsonValue.required JsonValue.asUInt32 account⟩
  | _ => none

def toJson (p : StartPath) : JsonValue :=
  .object [("purpose_index", .integer p.purpose.toNat), ("coin_type", .integer p.coinType.toNat),
    ("account_index", .integer p.account.toNat)]

def parse? (text : String) : Option StartPath :=
  (JsonValue.parse text).bind ofJson?

end StartPath

namespace EndPath

def ofJson? (v : JsonValue) : Option EndPath := do
  match ← v.fields? ["change_index", "address_index"] with
  | [change, index] =>
    return ⟨← JsonValue.required JsonValue.asUInt32 change,
      ← JsonValue.required JsonValue.asUInt32 index⟩
  | _ => none

def toJson (p : EndPath) : JsonValue :=
  .object [("change_index", .integer p.change.toNat), ("address_index", .integer p.index.toNat)]

def parse? (text : String) : Option EndPath :=
  (JsonValue.parse text).bind ofJson?

end EndPath

/-- All five steps. -/
def fullPath (start : StartPath) (last : EndPath) : List UInt32 :=
  [start.purpose, start.coinType, start.account, last.change, last.index]

/-- Whether an address is for others to pay to or for change. -/
inductive ChangeType
  | external
  | internal
  deriving Repr, DecidableEq

def ChangeType.index : ChangeType → UInt32
  | external => 0
  | internal => 1

def walletPurpose : UInt32 := 44

structure AccountKey where
  key : ExtendedKey
  start : StartPath
  deriving DecidableEq

/-- An address of an account, its text, the steps to it, and the node that spends from it. -/
structure AccountAddress where
  start : StartPath
  last : EndPath
  address : CashAddress
  key : ExtendedKey
  deriving DecidableEq

namespace AccountAddress

def text (a : AccountAddress) : String :=
  a.address.encode

def path (a : AccountAddress) : List UInt32 :=
  fullPath a.start a.last

end AccountAddress

namespace AccountKey

/-- The hardened number of a step. A number that is hardened already is refused. -/
def harden (index : UInt32) : Except DerivationError UInt32 :=
  if ExtendedKey.isHardened index then .error (.invalidChild index)
  else .ok (index + hardenedStart)

/-- The steps to an account, hardened below a root with its private key. -/
def startBelow (root : ExtendedKey) (purpose coinType account : UInt32) :
    Except DerivationError StartPath :=
  if root.isPrivate then
    match harden purpose with
    | .error e => .error e
    | .ok p =>
      match harden coinType with
      | .error e => .error e
      | .ok c =>
        match harden account with
        | .error e => .error e
        | .ok a => .ok ⟨p, c, a⟩
  else .ok ⟨purpose, coinType, account⟩

variable [KeySuite]

/-- The account below a root, with its private key or without it. It is derived with the key in
either case, and the key is taken off at the end. -/
def below (root : ExtendedKey) (purpose coinType account : UInt32) (includePrivate : Bool) :
    Except DerivationError AccountKey :=
  match startBelow root purpose coinType account with
  | .error e => .error e
  | .ok start =>
    match root.descend [start.purpose, start.coinType, start.account] with
    | .error e => .error e
    | .ok key => .ok ⟨if includePrivate then key else key.neuter, start⟩

def deriveAddress (a : AccountKey) (change : ChangeType) (index : UInt32) (network : Network) :
    Except DerivationError AccountAddress :=
  if ExtendedKey.isHardened index then .error (.invalidChild index)
  else
    match a.key.descend [change.index, index] with
    | .error e => .error e
    | .ok key => .ok ⟨a.start, ⟨change.index, index⟩, key.address network.label, key⟩

end AccountKey

end CashWallet
