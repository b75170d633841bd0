/-!
# `CashWallet/Json/Value.lean` — JSON values and how they are written

A front end and the wallet exchange JSON texts whose every character matters. A value here is what
the wallet can make sense of: text, whole numbers, rows and records. **A value that is written
correctly but means nothing to the wallet is `foreign`**: a number with a fraction or an exponent,
or text with half of a surrogate pair. It may stand where nobody looks, and nowhere else.

Records keep the order of their members. They are written in one line without blanks, or one
member a line with four blanks for each level.
-/

set_option autoImplicit false

namespace CashWallet

/-- A JSON value. -/
inductive JsonValue
  | null
  | bool (b : Bool)
  | integer (n : Int)
  | string (s : String)
  | array (items : List JsonValue)
  | object (members : List (String × JsonValue))
  | foreign
  deriving Inhabited

namespace JsonValue

def hexDigit (n : Nat) : Char :=
  if n < 10 then Char.ofNat (48 + n) else Char.ofNat (87 + n)

/-- A character as it stands between quotes. Only what the quotes cannot hold is written otherwise:
all else, of any script, stands for itself. -/
def escape (c : Char) : List Char :=
  match c with
  | '"' => ['\\', '"']
  | '\\' => ['\\', '\\']
  | '\x08' => ['\\', 'b']
  | '\x0c' => ['\\', 'f']
  | '\n' => ['\\', 'n']
  | '\r' => ['\\', 'r']
  | '\t' => ['\\', 't']
  | c =>
    if c.toNat < 0x20 then
      ['\\', 'u', '0', '0', hexDigit (c.toNat / 16), hexDigit (c.toNat % 16)]
    else [c]

def quote (s : String) : List Char :=
  '"' :: (s.toList.flatMap escape ++ ['"'])

/-- A whole number, without a point and without zeros in front. -/
def integerChars (n : Int) : List Char :=
  if n < 0 then '-' :: Nat.toDigits 10 n.natAbs else Nat.toDigits 10 n.natAbs

/-- Pieces with a separator between each two of them. -/
def separated (separator : List Char) : List (List Char) → List Char
  | [] => []
  | [piece] => piece
  | piece :: rest => piece ++ separator ++ separated separator rest

mutual

/-- A value in one line. What is foreign has no text; nothing that is written contains any. -/
def compactChars : JsonValue → List Char
  | null => "null".toList
  | bool true => "true".toList
  | bool false => "false".toList
  | integer n => integerChars n
  | string s => quote s
  | array items => '[' :: (separated [','] (compactItems items) ++ [']'])
  | object members => '{' :: (separated [','] (compactMembers members) ++ ['}'])
  | foreign => "null".toList

def compactItems : List JsonValue → List (List Char)
  | [] => []
  | item :: items => compactChars item :: compactItems items

def compactMembers : List (String × JsonValue) → List (List Char)
  | [] => []
  | (key, value) :: members => (quote key ++ ':' :: compactChars value) :: compactMembers members

end

/-- The text of a value, in one line without blanks. -/
def compact (v : JsonValue) : String :=
  String.ofList (compactChars v)

/-- The end of a line, and the blanks in front of the next one. -/
def lineBreak (level : Nat) : List Char :=
  '\n' :: List.replicate (4 * level) ' '

/-- A row of pieces between two brackets, one piece a line. -/
def spread (opening closing : Char) (level : Nat) (pieces : List (List Char)) : List Char :=
  match pieces with
  | [] => [opening, closing]
  | _ => opening :: (lineBreak (level + 1) ++ separated (',' :: lineBreak (level + 1)) pieces ++
      lineBreak level ++ [closing])

mutual

def prettyChars (level : Nat) : JsonValue → List Char
  | array items => spread '[' ']' level (prettyItems (level + 1) items)
  | object members => spread '{' '}' level (prettyMembers (level + 1) members)
  | null => "null".toList
  | bool true => "true".toList
  | bool false => "false".toList
  | integer n => integerChars n
  | string s => quote s
  | foreign => "null".toList

def prettyItems (level : Nat) : List JsonValue → List (List Char)
  | [] => []
  | item :: items => prettyChars level item :: prettyItems level items

def prettyMembers (level : Nat) : List (String × JsonValue) → List (List Char)
  | [] => []
  | (key, value) :: members =>
    (quote key ++ [':', ' '] ++ prettyChars level value) :: prettyMembers level members

end

def pretty (v : JsonValue) : String :=
  String.ofList (prettyChars 0 v)

end JsonValue

end CashWallet
