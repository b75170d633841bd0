import CashWallet.Json.Value

/-!
# `CashWallet/Json/Text.lean` — reading JSON values

The grammar is taken strictly: no comma too many, no leading zeros, no bare control characters, and
nothing but blanks around the value. Text is read in two steps: first the units that the quotes
hold, characters and numbered escapes, then the characters that they spell, where two numbered
escapes may make one. Only the first step can make the whole text unreadable; **text that spells
nothing is foreign**, and so is a record with such a key.

Numbers are read in the same two steps. Whatever has the form of a number is taken as a whole;
whether it is a whole number is decided afterwards, and one that is not is foreign too. A minus sign
in front of zero makes a number foreign: it is not a whole number to those who wrote it.

The reader spends one unit of fuel on each value and each item, and it gets more than there are
characters, so fuel never decides. That it does not is part of what is proved of the reader: the
text of every value is read back (`CashWallet/Proofs/Json/Value.lean`).
-/

set_option autoImplicit false

namespace CashWallet

namespace JsonValue

/-- The four characters that may stand between the parts of a text. -/
def isBlank (c : Char) : Bool :=
  c == ' ' || c == '\t' || c == '\n' || c == '\r'

def skipBlanks (cs : List Char) : List Char :=
  cs.dropWhile isBlank

/-! ## Text in quotes -/

/-- What quotes hold: a character, or the number of a 16-bit unit. -/
inductive TextUnit
  | char (c : Char)
  | unit (n : Nat)
  deriving Repr, DecidableEq

/-- The value of a digit of a numbered escape, with letters in either case. -/
def hexValue? (c : Char) : Option Nat :=
  let n := c.toNat
  if 48 ≤ n ∧ n ≤ 57 then some (n - 48)
  else if 97 ≤ n ∧ n ≤ 102 then some (n - 87)
  else if 65 ≤ n ∧ n ≤ 70 then some (n - 55)
  else none

/-- The character that stands behind a backslash for another. -/
def shortEscape? (c : Char) : Option Char :=
  match c with
  | '"' => some '"'
  | '\\' => some '\\'
  | '/' => some '/'
  | 'b' => some '\x08'
  | 'f' => some '\x0c'
  | 'n' => some '\n'
  | 'r' => some '\r'
  | 't' => some '\t'
  | _ => none

/-- The number written by four digits. -/
def unitOf? (a b c d : Char) : Option Nat := do
  let a ← hexValue? a
  let b ← hexValue? b
  let c ← hexValue? c
  let d ← hexValue? d
  return ((a * 16 + b) * 16 + c) * 16 + d

def consUnit (u : TextUnit) (r : Option (List TextUnit × List Char)) :
    Option (List TextUnit × List Char) :=
  r.map fun (us, rest) => (u :: us, rest)

/-- The units up to the closing quote, and what follows it. -/
def readUnits : List Char → Option (List TextUnit × List Char)
  | [] => none
  | '"' :: rest => some ([], rest)
  | '\\' :: 'u' :: a :: b :: c :: d :: rest =>
    match unitOf? a b c d with
    | some n => consUnit (.unit n) (readUnits rest)
    | none => none
  | '\\' :: e :: rest =>
    match shortEscape? e with
    | some c => consUnit (.char c) (readUnits rest)
    | none => none
  | ['\\'] => none
  | c :: rest => if c.toNat < 0x20 then none else consUnit (.char c) (readUnits rest)

/-- The characters that units spell, if they spell any. -/
def spell? : List TextUnit → Option (List Char)
  | [] => some []
  | .char c :: rest => (spell? rest).map (c :: ·)
  | .unit high :: .unit low :: rest =>
    -- A high surrogate counts only with a low one behind it.
    if 0xd800 ≤ high ∧ high < 0xdc00 then
      if 0xdc00 ≤ low ∧ low < 0xe000 then
        (spell? rest).map (Char.ofNat (0x10000 + (high - 0xd800) * 1024 + (low - 0xdc00)) :: ·)
      else none
    else if 0xdc00 ≤ high ∧ high < 0xe000 then none
    else (spell? (.unit low :: rest)).map (Char.ofNat high :: ·)
  | .unit n :: rest =>
    if 0xd800 ≤ n ∧ n < 0xe000 then none else (spell? rest).map (Char.ofNat n :: ·)

/-- The text behind an opening quote, if its units spell one, and what follows it. -/
def readText (cs : List Char) : Option (Option String × List Char) :=
  (readUnits cs).map fun (units, rest) => ((spell? units).map String.ofList, rest)

/-! ## Numbers -/

def isDigit (c : Char) : Bool :=
  48 ≤ c.toNat && c.toNat ≤ 57

def digitsValue (cs : List Char) : Nat :=
  cs.foldl (fun acc c => acc * 10 + (c.toNat - 48)) 0

/-- The digits at the front, of which there has to be one. -/
def readDigits (cs : List Char) : Option (List Char × List Char) :=
  match cs.span isDigit with
  | ([], _) => none
  | r => some r

/-- The digits at the front, without a zero before others. -/
def readWhole (cs : List Char) : Option (List Char × List Char) :=
  match readDigits cs with
  | some ('0' :: _ :: _, _) => none
  | r => r

def skipFraction (cs : List Char) : Option (List Char) :=
  match cs with
  | '.' :: rest => (readDigits rest).map Prod.snd
  | _ => some cs

def skipExponent (cs : List Char) : Option (List Char) :=
  match cs with
  | 'e' :: rest | 'E' :: rest =>
    match rest with
    | '+' :: digits | '-' :: digits => (readDigits digits).map Prod.snd
    | _ => (readDigits rest).map Prod.snd
  | _ => some cs

/-- The number at the front. A minus sign before zero makes it no whole number. -/
def readNumber (cs : List Char) : Option (JsonValue × List Char) := do
  let (negative, start) := match cs with
    | '-' :: rest => (true, rest)
    | _ => (false, cs)
  let (digits, afterWhole) ← readWhole start
  let afterFraction ← skipFraction afterWhole
  let rest ← skipExponent afterFraction
  let n := digitsValue digits
  -- A fraction or an exponent takes characters, and then the number is not a whole one.
  let isWhole := rest.length == afterWhole.length && !(negative && n == 0)
  let value := if isWhole then integer (if negative then -(n : Int) else n) else foreign
  return (value, rest)

/-! ## Values -/

def readWord (cs : List Char) : Option (JsonValue × List Char) :=
  match cs with
  | 'n' :: 'u' :: 'l' :: 'l' :: rest => some (null, rest)
  | 't' :: 'r' :: 'u' :: 'e' :: rest => some (bool true, rest)
  | 'f' :: 'a' :: 'l' :: 's' :: 'e' :: rest => some (bool false, rest)
  | _ => none

/-- The record with the given members; foreign when one of their keys spells nothing. -/
def ofMembers (members : List (Option String × JsonValue)) : JsonValue :=
  match members.mapM fun (key, value) => key.map fun k => (k, value) with
  | some members => object members
  | none => foreign

mutual

def readValue : Nat → List Char → Option (JsonValue × List Char)
  | 0, _ => none
  | fuel + 1, cs =>
    match skipBlanks cs with
    | '"' :: rest =>
      match readText rest with
      | some (some s, after) => some (string s, after)
      | some (none, after) => some (foreign, after)
      | none => none
    | '[' :: rest =>
      match skipBlanks rest with
      | ']' :: after => some (array [], after)
      | _ => (readItems fuel rest).map fun (items, after) => (array items, after)
    | '{' :: rest =>
      match skipBlanks rest with
      | '}' :: after => some (object [], after)
      | _ => (readMembers fuel rest).map fun (members, after) => (ofMembers members, after)
    | c :: rest => if c == '-' || isDigit c then readNumber (c :: rest) else readWord (c :: rest)
    | [] => none

/-- The items up to the closing bracket; there is at least one. -/
def readItems : Nat → List Char → Option (List JsonValue × List Char)
  | 0, _ => none
  | fuel + 1, cs =>
    match readValue fuel cs with
    | none => none
    | some (item, rest) =>
      match skipBlanks rest with
      | ',' :: more => (readItems fuel more).map fun (items, after) => (item :: items, after)
      | ']' :: after => some ([item], after)
      | _ => none

/-- The members up to the closing brace; there is at least one. A key may spell nothing. -/
def readMembers : Nat → List Char → Option (List (Option String × JsonValue) × List Char)
  | 0, _ => none
  | fuel + 1, cs =>
    match skipBlanks cs with
    | '"' :: keyChars =>
      match readText keyChars with
      | none => none
      | some (key, afterKey) =>
        match skipBlanks afterKey with
        | ':' :: valueChars =>
          match readValue fuel valueChars with
          | none => none
          | some (value, rest) =>
            match skipBlanks rest with
            | ',' :: more =>
              (readMembers fuel more).map fun (members, after) => ((key, value) :: members, after)
            | '}' :: after => some ([(key, value)], after)
            | _ => none
        | _ => none
    | _ => none

end

/-- The value that a text is, with nothing but blanks behind it. -/
def parseChars (cs : List Char) : Option JsonValue :=
  match readValue (cs.length + 1) cs with
  | some (value, rest) => if (skipBlanks rest).isEmpty then some value else none
  | none => none

def parse (text : String) : Option JsonValue :=
  parseChars text.toList

end JsonValue

end CashWallet
