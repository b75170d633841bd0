import CashWallet.Transaction.Preimage
import CashWallet.Wallet.Account

/-!
# `CashWallet/Wallet/Basic.lean` — wallets, and what they can fail at

A wallet is a phrase, a choice of address, and the text of that address. **It keeps no key**:
whoever signs walks the path from the phrase again (`Wallet.signingKey`). A blank phrase asks for a
new one, which takes entropy from outside; the entropy is an argument, so that making a wallet is a
function like any other.

A wallet passes on the failures of what it is made of, each with a word in front that tells where it
arose, and adds some of its own (`WalletError`). What can be wrong with a record, as distinct from
the transaction that it describes, is a `RecordFault`.

When a wallet is shown, in a log or by a debugger, its phrase is not (`Wallet.describe`).
-/

set_option autoImplicit false

/-! ## Failures -/

namespace CashWallet

inductive RecordFault
  | negativeOutput (value : Int64)
  | outputOutOfRange (value : UInt64)
  | inputTotalOutOfRange
  | outputTotalOutOfRange
  | feeOutOfRange
  | negativeSpent (index : Nat) (value : Int64)
  | negativeIndex (index : Int32)
  | noPrivateKey
  deriving Repr, DecidableEq

def RecordFault.message : RecordFault → String
  | negativeOutput v => s!"negative output value {v.toInt}"
  | outputOutOfRange v => s!"output value {v.toNat} out of range"
  | inputTotalOutOfRange => "input total out of range"
  | outputTotalOutOfRange => "output total out of range"
  | feeOutOfRange => "network fee out of range"
  | negativeSpent i v => s!"input {i} spends negative value {v.toInt}"
  | negativeIndex i => s!"negative output index {i.toInt}"
  | noPrivateKey => "derived address has no private key"

inductive WalletError
  | notInitialized
  | emptyScript (index : Nat)
  | partiallySigned
  | validationFailed
  | invalidTransaction (e : RecordFault)
  | derivation (e : DerivationError)
  | hash (e : HashError)
  | signature (e : SignatureError)
  | script (e : ScriptError)
  | sighash (e : SighashError)
  | decode (e : DecodeError)
  | json
  deriving Repr, DecidableEq

/-- The wording of a failure. What is wrong with a JSON text is not told. -/
def WalletError.message : WalletError → String
  | notInitialized => "wallet not initialized"
  | emptyScript i => s!"input {i} has an empty pubScript"
  | partiallySigned => "not all inputs have been signed"
  | validationFailed => "transaction failed validation"
  | invalidTransaction e => s!"invalid transaction: {e.message}"
  | derivation e => s!"derivation error: {e.message}"
  | hash e => s!"primitives error: {e.message}"
  | signature e => s!"primitives error: {e.message}"
  | script e => s!"script error: {e.message}"
  | sighash e => s!"signature hash error: {e.message}"
  | decode e => s!"decode error: {e.message}"
  | json => "json error: "

end CashWallet

/-! ## Wallets -/

namespace CashWallet

/-- A wallet. Its address follows from the two others, and is kept because deriving it takes
long. -/
structure Wallet where
  mnemonic : String
  config : WalletConfig
  address : String
  deriving DecidableEq

namespace Wallet

variable [KeySuite]

/-- The address that a phrase and a choice lead to, with the node that spends from it. -/
def deriveAddress (mnemonic : String) (config : WalletConfig) :
    Except DerivationError AccountAddress :=
  match Mnemonic.parse mnemonic with
  | .error e => .error (.invalidMnemonic e)
  | .ok m =>
    match ExtendedKey.root m.seed config.network with
    | .error e => .error e
    | .ok root =>
      match AccountKey.below root walletPurpose config.network.coinType config.account true with
      | .error e => .error e
      | .ok account => account.deriveAddress .external config.addressIndex config.network

/-- The private key behind the address of a wallet. -/
def signingKey (mnemonic : String) (config : WalletConfig) : Except WalletError PrivateKey :=
  match deriveAddress mnemonic config with
  | .error e => .error (.derivation e)
  | .ok a =>
    match a.key.privateKey? with
    | some k => .ok k
    | none => .error (.invalidTransaction .noPrivateKey)

/-- The phrase of a wallet: the given text without the blanks at its ends, or a new phrase made from
the entropy when there is nothing else. -/
def phraseOr (entropy : Bytes) (text : String) : String :=
  if (Text.trimChars text.toList).isEmpty then (Mnemonic.ofEntropy entropy).text else Text.trim text

def make (entropy : Bytes) (text : String) (config : WalletConfig) :
    Except WalletError Wallet :=
  let mnemonic := phraseOr entropy text
  match deriveAddress mnemonic config with
  | .error e => .error (.derivation e)
  | .ok a => .ok ⟨mnemonic, config, a.text⟩

/-- A wallet as a line of a log shows it: without its phrase. -/
def describe (w : Wallet) : String :=
  "WalletContext \x7b network: \"" ++ w.config.network.name ++ "\", address: \"" ++ w.address ++
    "\", .. \x7d"

end Wallet

end CashWallet
