import CashWallet.CommandLine
import CashWallet.Curve.Secp256k1

/-!
# `CashWallet/Main.lean` — the program

Takes the arguments and the phrase in the environment, makes the call, and prints what it yields.
The entropy for a phrase that may have to be made is drawn before it is known whether one has to be,
so that everything else is a function (`CommandLine.run`).

This is the only module with effects. It adds nothing to what a run means: the outputs are printed
as they are, and the exit code is zero for a run that succeeds and one for any other.
-/

open CashWallet

def main (args : List String) : IO UInt32 := do
  let phrase ← IO.getEnv "BCH_MNEMONIC"
  let entropy ← IO.getRandomBytes (USize.ofNat Mnemonic.entropySize)
  let result := CommandLine.run entropy.toList args phrase
  IO.print result.output
  IO.eprint result.errorOutput
  return if result.succeeded then 0 else 1
