import CashWallet.Wallet.Session

/-!
# `CashWallet/CommandLine.lean` — one call from the command line

A run of the program is one call: a method, a payload, and perhaps a phrase from the environment, of
which a wallet is made before the call, unless the call is the one that makes wallets under its
short code. What is printed and how the run ends is a function of these.

The method has a name beside its short code, and under its name it is not excepted: there the wallet
of the phrase is made first, and if there is none the call is not made. Which runs this tells apart
is settled in `CashWallet/Proofs/CommandLine.lean`.

A run succeeds when its answer can be read and reports success. The answer goes to the output in
either case; only a wallet that cannot be made from the phrase of the environment is reported where
errors are.
-/

set_option autoImplicit false

namespace CashWallet

/-- How a run ends, and what it prints on either side. -/
structure RunResult where
  succeeded : Bool
  output : String
  errorOutput : String
  deriving Repr, DecidableEq

namespace CommandLine

variable [KeySuite]

def callOn (entropy : Bytes) (method payload : String) (s : Session) : RunResult :=
  let (reply, _) := s.call entropy method payload
  let succeeded := match Reply.parse? reply with
    | some r => r.isSuccess
    | none => false
  ⟨succeeded, reply ++ "\n", ""⟩

/-- A run with the given arguments, of which only the first two count, and the given phrase. -/
def run (entropy : Bytes) (args : List String) (phrase : Option String) : RunResult :=
  let method := args[0]?.getD ""
  let payload := args[1]?.getD ""
  let mnemonic := phrase.getD ""
  if method ≠ "M1" ∧ mnemonic ≠ "" then
    let (reply, s) := Session.startReply entropy mnemonic none
    if reply.isSuccess then callOn entropy method payload s
    else ⟨false, "", reply.pretty ++ "\n"⟩
  else callOn entropy method payload none

end CommandLine

end CashWallet
