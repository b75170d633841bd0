import CashWallet.Address.Basic
import CashWallet.Json.Record
import CashWallet.Script.Basic
import CashWallet.Wire.Hash256

/-!
# `CashWallet/Json/Scalar.lean` — values that are one text

Identifiers, scripts and addresses stand in JSON as the texts by which they are known. Reading one
is reading the text; whatever is wrong, the value is simply none of its kind.

So a value that is no text, and a text that is no identifier, are not told apart here: a member with
either makes its record unreadable, and what is reported of a record says only that it could not be
read.
-/

set_option autoImplicit false

namespace CashWallet

namespace Hash256

/-- An identifier is shown the other way round, as everywhere. -/
def toJson (h : Hash256) : JsonValue :=
  .string h.display

def ofJson? (v : JsonValue) : Option Hash256 :=
  v.asString.bind fun s => (parse s).toOption

end Hash256

namespace Script

def toJson (s : Script) : JsonValue :=
  .string s.toHex

/-- A script is given by its digits. -/
def ofJson? (v : JsonValue) : Option Script :=
  v.asString.bind fun s => (parse s).toOption

end Script

namespace CashAddress

def toJson (a : CashAddress) : JsonValue :=
  .string a.encode

def ofJson? (v : JsonValue) : Option CashAddress :=
  v.asString.bind fun s => (decode s).toOption

end CashAddress

end CashWallet
