import CashWallet.Json.Text

/-!
# `CashWallet/Json/Record.lean` — records with known members

A record is read by the names of its members, in any order, or as a row of their values, in the
order of the names. Members with other names are passed over, whatever they are; **a known member
that is given twice makes the record unreadable**, and so does a row that is too long. What a
missing member means is up to the record.

A reader of a record names its members once (`fields?`) and gets their values in the order of the
names, so that it does not matter afterwards in which of the two ways they came. A row that is too
short counts as one whose last members are missing.

The readers of members take the value, or nothing where the member is missing. There are two ways to
deal with that (`orElse`, `required`), and the readers of the values themselves are the same for
both. A number has to lie in the range of its type: one outside it is refused and not cut.
-/

set_option autoImplicit false

namespace CashWallet.JsonValue

/-- The values of a record under the given names, where they are given. -/
def fields? (names : List String) : JsonValue → Option (List (Option JsonValue))
  | object members =>
    names.mapM fun name =>
      match members.filter fun m => m.1 == name with
      | [] => some none
      | [(_, value)] => some (some value)
      | _ => none
  | array items =>
    if names.length < items.length then none
    else some (items.map some ++ List.replicate (names.length - items.length) none)
  | _ => none

/-- A member that may be missing, and then has the given value. -/
def orElse {α : Type} (default : α) (read : JsonValue → Option α) : Option JsonValue → Option α
  | none => some default
  | some v => read v

def required {α : Type} (read : JsonValue → Option α) : Option JsonValue → Option α
  | none => none
  | some v => read v

/-! ## Values of members -/

def asString : JsonValue → Option String
  | string s => some s
  | _ => none

/-- A text, or the word for nothing. -/
def asOptionalString : JsonValue → Option (Option String)
  | null => some none
  | string s => some (some s)
  | _ => none

def asBool : JsonValue → Option Bool
  | bool b => some b
  | _ => none

/-- A whole number between two bounds, both included. -/
def asIntegerIn (least greatest : Int) : JsonValue → Option Int
  | integer n => if least ≤ n ∧ n ≤ greatest then some n else none
  | _ => none

def asUInt32 (v : JsonValue) : Option UInt32 :=
  (asIntegerIn 0 (UInt32.size - 1) v).map fun n => UInt32.ofNat n.toNat

def asInt32 (v : JsonValue) : Option Int32 :=
  (asIntegerIn Int32.minValue.toInt Int32.maxValue.toInt v).map Int32.ofInt

def asInt64 (v : JsonValue) : Option Int64 :=
  (asIntegerIn Int64.minValue.toInt Int64.maxValue.toInt v).map Int64.ofInt

/-- A row of values of one kind. One that is not of the kind spoils the row. -/
def asList {α : Type} (read : JsonValue → Option α) : JsonValue → Option (List α)
  | array items => items.mapM read
  | _ => none

end CashWallet.JsonValue
