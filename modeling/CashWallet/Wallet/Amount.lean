/-!
# `CashWallet/Wallet/Amount.lean` — amounts, their sums, and how a person reads them

Amounts are counted in whole satoshis. A front end passes them as signed numbers of 64 bits, so that
a change of what someone owns is an amount too, and so that two amounts may have a sum that is none.
The sums here are taken in the integers and brought back (`TxRecord.toInt64?`): **a sum that 64 bits
do not hold is no sum**, whether it is too large or too small, and nothing ever wraps around. A row
of amounts is added up from the left, and one sum on the way that does not fit is enough to have
none.

People are shown coins of 100,000,000 satoshis, to four places, and give amounts in coins too. Both
ways go through floating point, where a half goes away from zero, and neither is exact: what is
shown of an amount does not give the amount back. No transaction is made here from what was shown.
-/

set_option autoImplicit false

namespace CashWallet.TxRecord

/-! ## Sums -/

/-- An integer as an amount, if 64 bits hold it. -/
def toInt64? (n : Int) : Option Int64 :=
  if Int64.minValue.toInt ≤ n ∧ n ≤ Int64.maxValue.toInt then some (Int64.ofInt n) else none

def checkedAdd? (a b : Int64) : Option Int64 :=
  toInt64? (a.toInt + b.toInt)

/-- The sum of some amounts added up from the left, when 64 bits hold each sum on the way. -/
def checkedSum? (start : Int64) : List Int64 → Option Int64
  | [] => some start
  | v :: rest => (checkedAdd? start v).bind (checkedSum? · rest)

/-- The difference of two amounts, if it is an amount. -/
def checkedSub? (a b : Int64) : Option Int64 :=
  toInt64? (a.toInt - b.toInt)

/-- What is spent beyond what is paid; nothing when nothing is known to be spent. -/
def fee? (inputVal outputVal : Int64) : Option Int64 :=
  if 0 < inputVal then checkedSub? inputVal outputVal else some 0

end CashWallet.TxRecord

namespace CashWallet.Amount

/-! ## Coins -/

def satoshisPerCoin : Float := 100000000.0

def shownParts : Float := 10000.0

/-- An amount in coins, to four places. -/
def toCoins (satoshis : Int64) : Float :=
  (satoshis.toFloat / satoshisPerCoin * shownParts).round / shownParts

/-- The price in coins of one of several things bought together; there is none when there are no
things. The price in satoshis is rounded first. -/
def coinsPerUnit? (satoshis quantity : Int64) : Option Float :=
  if quantity = 0 then none
  else some (toCoins (satoshis.toFloat / quantity.toFloat).round.toInt64)

/-- The nearest amount of satoshis to an amount in coins, within what 64 bits hold. -/
def ofCoins (coins : Float) : Int64 :=
  (coins * satoshisPerCoin).round.toInt64

end CashWallet.Amount
