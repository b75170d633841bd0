import CashWallet.Bytes

/-!
# `CashWallet/Text/Utf8.lean` — text as bytes, and bytes as text

Text goes on the wire in UTF-8. Writing it is `utf8`, character by character; reading it has to cope
with bytes from strangers, so `ofUtf8Lossy` never fails: **every longest piece that could have begun
a character but did not become one is read as one replacement character**.

The reader is one pass over the bytes with a small state: either it stands between characters, or it
has seen the first bytes of one and knows which range the next byte has to be in. A byte outside
that range ends the piece and is looked at afresh.

Which pieces are replaced as one matters, since the replacement character takes three bytes when it
is written again: a text that was read from few bytes can be longer than they were. The ranges are
those of the Unicode standard's table of well-formed byte sequences, and what they exclude is
excluded at the first byte that makes it impossible:

* `C0` and `C1`, with which only overlong forms could begin, and `F5` and above;
* after `E0` and `F0` the second bytes that would make an overlong form;
* after `ED` the second bytes that would make a surrogate, after `F4` those past the last code
  point.
-/

set_option autoImplicit false

namespace CashWallet.Text

def utf8 (s : String) : Bytes :=
  s.toList.flatMap String.utf8EncodeChar

/-- What is read where there is no character. -/
def replacement : Char := '\uFFFD'

/-- A character of which some bytes were read: the bits so far, how many bytes are still to
come after the next one, and the range the next one has to be in. -/
structure Partial where
  bits : Nat
  more : Nat
  lowest : Nat
  highest : Nat

/-- What a byte between two characters is: a character of its own, the start of a longer one, or
nothing that text can begin with. The narrowed ranges keep out overlong forms, surrogates and
values past the last code point. -/
inductive Lead
  | char (c : Char)
  | opens (p : Partial)
  | invalid

def lead (b : UInt8) : Lead :=
  let n := b.toNat
  if n < 0x80 then .char (Char.ofNat n)
  else if n < 0xc2 then .invalid
  else if n < 0xe0 then .opens ⟨n - 0xc0, 0, 0x80, 0xbf⟩
  else if n = 0xe0 then .opens ⟨0, 1, 0xa0, 0xbf⟩
  else if n = 0xed then .opens ⟨0xd, 1, 0x80, 0x9f⟩
  else if n < 0xf0 then .opens ⟨n - 0xe0, 1, 0x80, 0xbf⟩
  else if n = 0xf0 then .opens ⟨0, 2, 0x90, 0xbf⟩
  else if n < 0xf4 then .opens ⟨n - 0xf0, 2, 0x80, 0xbf⟩
  else if n = 0xf4 then .opens ⟨4, 2, 0x80, 0x8f⟩
  else .invalid

/-- The characters of the bytes to come, given the character that has been begun. A character that
the bytes break off in is replaced as well. -/
def decodeFrom : Option Partial → Bytes → List Char
  | none, [] => []
  | some _, [] => [replacement]
  | none, b :: rest => fresh b rest
  | some p, b :: rest =>
    let n := b.toNat
    if p.lowest ≤ n ∧ n ≤ p.highest then
      let bits := p.bits * 64 + n % 64
      match p.more with
      | 0 => Char.ofNat bits :: decodeFrom none rest
      | more + 1 => decodeFrom (some ⟨bits, more, 0x80, 0xbf⟩) rest
    -- The byte that does not fit may begin a character of its own.
    else replacement :: fresh b rest
where
  fresh (b : UInt8) (rest : Bytes) : List Char :=
    match lead b with
    | .char c => c :: decodeFrom none rest
    | .opens p => decodeFrom (some p) rest
    | .invalid => replacement :: decodeFrom none rest

/-- The text of a byte string, with a replacement character for each longest invalid piece. -/
def ofUtf8Lossy (b : Bytes) : String :=
  String.ofList (decodeFrom none b)

end CashWallet.Text
