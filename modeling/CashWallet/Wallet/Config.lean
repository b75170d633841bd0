import CashWallet.Address.Basic
import CashWallet.Json.Record

/-!
# `CashWallet/Wallet/Config.lean` — networks, and which of its addresses a wallet shows

A network decides the label of addresses, the number of the coin in key paths, and the marks of
written keys. Tokens of the ledger protocol live on the main network and only differ from it in the
number of the coin, so **three networks have two labels**: an address of the main network and one of
the ledger protocol cannot be told apart by their text.

A wallet shows one address: of a network, of an account, at a place among its receiving addresses.
All three have defaults, and a configuration names only what it changes. A place past the last one
that a path can have is refused when the address is derived, not here.
-/

set_option autoImplicit false

/-! ## Networks -/

namespace CashWallet

inductive Network
  | mainnet
  | testnet
  | slp
  deriving Repr, DecidableEq

namespace Network

def name : Network → String
  | mainnet => "mainnet"
  | testnet => "testnet"
  | slp => "slp"

def ofName? (name : String) : Option Network :=
  if name = "mainnet" then some mainnet
  else if name = "testnet" then some testnet
  else if name = "slp" then some slp
  else none

def label : Network → String
  | mainnet => mainLabel
  | testnet => testLabel
  | slp => mainLabel

/-- The number of its coin in key paths. -/
def coinType : Network → UInt32
  | mainnet => 145
  | testnet => 145
  | slp => 245

/-- What stands in front of a written private key. -/
def privateKeyMark : Network → FixedBytes 4
  | mainnet | slp => ⟨[0x04, 0x88, 0xad, 0xe4], rfl⟩
  | testnet => ⟨[0x04, 0x35, 0x83, 0x94], rfl⟩

def publicKeyMark : Network → FixedBytes 4
  | mainnet | slp => ⟨[0x04, 0x88, 0xb2, 0x1e], rfl⟩
  | testnet => ⟨[0x04, 0x35, 0x87, 0xcf], rfl⟩

end Network

end CashWallet

/-! ## Configurations -/

namespace CashWallet

/-- Which of its addresses a wallet shows. -/
structure WalletConfig where
  network : Network
  account : UInt32
  addressIndex : UInt32
  deriving Repr, DecidableEq

namespace WalletConfig

/-- The main network, the first account, and the address that the wallet has always used. -/
def standard : WalletConfig :=
  ⟨.mainnet, 0, 255⟩

instance : Inhabited WalletConfig := ⟨standard⟩

/-- A network: its name, or a record with its name as the only member and nothing as its value. -/
def readNetwork : JsonValue → Option Network
  | .string name => Network.ofName? name
  | .object [(name, .null)] => Network.ofName? name
  | _ => none

/-- A configuration as a record; what it leaves out is as in the standard one. -/
def ofJson? (v : JsonValue) : Option WalletConfig := do
  match ← v.fields? ["network", "account", "addressIndex"] with
  | [network, account, addressIndex] =>
    let network ← JsonValue.orElse standard.network readNetwork network
    let account ← JsonValue.orElse standard.account JsonValue.asUInt32 account
    let addressIndex ← JsonValue.orElse standard.addressIndex JsonValue.asUInt32 addressIndex
    return ⟨network, account, addressIndex⟩
  | _ => none

def toJson (c : WalletConfig) : JsonValue :=
  .object [("network", .string c.network.name), ("account", .integer c.account.toNat),
    ("addressIndex", .integer c.addressIndex.toNat)]

def parse? (text : String) : Option WalletConfig :=
  (JsonValue.parse text).bind ofJson?

end WalletConfig

end CashWallet
