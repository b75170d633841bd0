import CashWallet.Decimal

/-!
# `CashWallet/Release.lean` — the name and version of the program

Versions are numbers, exchanged as texts with four places. A text of a version is read with the
blanks around it taken off, and as a literal of a number in any of its forms (`Decimal.parse`).
-/

set_option autoImplicit false

namespace CashWallet.Release

def version : Float := 0.1

def isNewer (v : Float) : Bool :=
  version < v

def render (v : Float) : String :=
  Decimal.fixed 4 v

/-- The version that a text shows, blanks around it aside. -/
def parse (text : String) : Except Decimal.LiteralError Float :=
  Decimal.parse (Text.trim text)

def banner : String :=
  "BHD BunnyHedger " ++ render version ++ " - there is no winter as crypto winter"

end CashWallet.Release
