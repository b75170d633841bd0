import CashWallet.Wallet.Reply
import CashWallet.Wallet.Signing

/-!
# `CashWallet/Wallet/Session.lean` — one wallet and the calls on it

A session holds at most one wallet. **The first that can be made stays**: later initialisations
succeed and change nothing, whatever their phrase, and a failed one leaves the session empty. Calls
name their method by a short code or by its name.

A session is the state of a run: a call takes the wallet there is and yields the reply and the
wallet there is afterwards. Entropy for a phrase that may have to be made comes with the call.

Of the four methods only the first can change the session. The others need a wallet and are refused
without one. Two of them never look at their payload; signing reads it first, so a bad one is
reported whether or not there is a wallet.

Every call has an answer. A method that does not exist is answered too, in one line; all other
answers are spread over several.
-/

set_option autoImplicit false

namespace CashWallet

/-- The wallet of a session, if it has one. -/
abbrev Session := Option Wallet

inductive Method
  | start
  | mnemonic
  | address
  | sign
  deriving Repr, DecidableEq

/-- The method with a short code or a name. -/
def Method.ofName? (name : String) : Option Method :=
  if name = "M1" ∨ name = "initialize" then some .start
  else if name = "M2" ∨ name = "mnemonic" then some .mnemonic
  else if name = "M3" ∨ name = "address" then some .address
  else if name = "M4" ∨ name = "sign" then some .sign
  else none

/-- The parameters in a payload; a blank payload has none. -/
def CallParams.parse (payload : String) : Except WalletError CallParams :=
  if (Text.trimChars payload.toList).isEmpty then .ok .none
  else
    match (JsonValue.parse payload).bind ofJson? with
    | some p => .ok p
    | .none => .error .json

namespace Session

variable [KeySuite]

/-! ## The wallet itself -/

/-- Makes the wallet of a session unless there is one; yields the wallet there is. -/
def install (entropy : Bytes) (text : String) (config : WalletConfig) (s : Session) :
    Except WalletError Wallet × Session :=
  match s with
  | some w => (.ok w, some w)
  | none =>
    match Wallet.make entropy text config with
    | .ok w => (.ok w, some w)
    | .error e => (.error e, none)

def wallet (s : Session) : Except WalletError Wallet :=
  match s with
  | some w => .ok w
  | none => .error .notInitialized

/-- Signs a record with the wallet, and leaves it as it came where there is none. -/
def signRecord (executor : Executor) (s : Session) (t : TxRecord) : Attempt :=
  match s with
  | none => ⟨t, .error .notInitialized⟩
  | some w => Signing.sign executor w.mnemonic w.config t

/-! ## Calls -/

/-- Starts the session. The configuration is always the standard one. -/
def startReply (entropy : Bytes) (text : String) (s : Session) : Reply × Session :=
  match install entropy text .standard s with
  | (.ok _, s) => (.success "", s)
  | (.error e, s) => (.failure .initFailed e.message, s)

def withWallet (s : Session) (f : Wallet → Reply) : Reply :=
  match s with
  | some w => f w
  | none => .failure .notInitialized "Wallet not initialized"

def mnemonicReply (s : Session) : Reply :=
  withWallet s fun w => .success w.mnemonic

def addressReply (s : Session) : Reply :=
  withWallet s fun w => .success w.address

/-- Signs a record given as text. A record that is signed only in part, or that fails its check, is
not part of the answer. -/
def signReply (text : String) (s : Session) : Reply :=
  withWallet s fun w =>
    match TxRecord.parse text with
    | .error e => .failure .badTransaction s!"Cannot deserialize tx request due to:{e.message}"
    | .ok t =>
      let attempt := Signing.sign Executor.standard w.mnemonic w.config t
      match attempt.result with
      | .error e => .failure .signFailed s!"Cannot sign tx due to:{e.message}"
      | .ok () => .success attempt.record.render

/-- One method. The session afterwards differs from the one before in the first case alone. -/
def run (entropy : Bytes) (method : Method) (payload : String) (s : Session) : Reply × Session :=
  match method with
  | .start =>
    match CallParams.parse payload with
    | .error e => (.failure .initFailed s!"Cannot parse parameters due to:{e.message}", s)
    | .ok p => startReply entropy p.param1 s
  | .mnemonic => (mnemonicReply s, s)
  | .address => (addressReply s, s)
  | .sign =>
    match CallParams.parse payload with
    | .error e => (.failure .badTransaction s!"Cannot parse parameters due to:{e.message}", s)
    | .ok p => (signReply p.param1 s, s)

/-- The text that answers a call, and the session afterwards. A call that names no method there is
gets its answer in one line. -/
def call (entropy : Bytes) (name payload : String) (s : Session) : String × Session :=
  if name.isEmpty then
    ((Reply.failure .noMethod "Error: No method name provided").compact, s)
  else
    match Method.ofName? name with
    | none =>
      ((Reply.failure .notInitialized
        s!"Error: Unknown method name:{name} (Not implemented))").compact, s)
    | some method =>
      let (reply, s) := run entropy method payload s
      (reply.pretty, s)

end Session

end CashWallet
