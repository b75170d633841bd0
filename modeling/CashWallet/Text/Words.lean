/-!
# `CashWallet/Text/Words.lean` — blanks, words, and letters in disguise

A phrase comes from a person, typed or copied from somewhere, and the same words may arrive in many
spellings. Two steps take them to one form, and **nothing that reads a phrase looks at its
characters in any other way** (`plainWords`).

* Blanks divide. A blank is a character with the Unicode property `White_Space`: the ASCII blanks
  and the spaces of other scripts. The words of a text are its longest runs of other characters, so
  `words` never yields an empty word, and it does not matter how many blanks stand between two words
  or at the ends.
* Disguises come off. Unicode has letters a second time for use as superscripts, ligatures, in
  circles, in full width or as mathematical alphabets, and blanks a second time as part of spacing
  accents. Compatibility decomposition takes them back to plain letters and blanks.

Phrases are made of small Latin letters and blanks, so only the characters that decompose to some of
these matter here. All others are left as they are, since neither they nor their parts can belong to
a word, and a word that does not belong is refused whatever it looks like.
-/

set_option autoImplicit false

/-! ## Blanks and words -/

namespace CashWallet.Text

/-- The characters with the property `White_Space`, by their code points. -/
def isBlank (c : Char) : Bool :=
  let n := c.toNat
  (9 ≤ n && n ≤ 13) || n == 0x20 || n == 0x85 || n == 0xa0 || n == 0x1680 ||
    (0x2000 ≤ n && n ≤ 0x200a) || n == 0x2028 || n == 0x2029 || n == 0x202f ||
    n == 0x205f || n == 0x3000

def trimChars (cs : List Char) : List Char :=
  ((cs.dropWhile isBlank).reverse.dropWhile isBlank).reverse

def trim (s : String) : String :=
  String.ofList (trimChars s.toList)

/-- The words of a text that continues a word begun by the given characters, latest first. -/
def wordsFrom : List Char → List Char → List (List Char)
  | [], [] => []
  | w, [] => [w.reverse]
  | w, c :: rest =>
    if isBlank c then
      if w.isEmpty then wordsFrom [] rest else w.reverse :: wordsFrom [] rest
    else wordsFrom (c :: w) rest

def words (cs : List Char) : List (List Char) :=
  wordsFrom [] cs

end CashWallet.Text

/-! ## Letters in disguise -/

namespace CashWallet.Text

/-- Runs of characters that stand for consecutive small letters: the first and the last character,
and the letter of the first. -/
def letterRuns : List (Nat × Nat × Char) :=
  [(0xaa, 0xaa, 'a'), (0xba, 0xba, 'o'), (0x17f, 0x17f, 's'), (0x2b0, 0x2b0, 'h'),
   (0x2b2, 0x2b2, 'j'), (0x2b3, 0x2b3, 'r'), (0x2b7, 0x2b7, 'w'), (0x2b8, 0x2b8, 'y'),
   (0x2e1, 0x2e1, 'l'), (0x2e2, 0x2e2, 's'), (0x2e3, 0x2e3, 'x'), (0x1d43, 0x1d43, 'a'),
   (0x1d47, 0x1d47, 'b'), (0x1d48, 0x1d49, 'd'), (0x1d4d, 0x1d4d, 'g'), (0x1d4f, 0x1d4f, 'k'),
   (0x1d50, 0x1d50, 'm'), (0x1d52, 0x1d52, 'o'), (0x1d56, 0x1d56, 'p'), (0x1d57, 0x1d58, 't'),
   (0x1d5b, 0x1d5b, 'v'), (0x1d62, 0x1d62, 'i'), (0x1d63, 0x1d63, 'r'), (0x1d64, 0x1d65, 'u'),
   (0x1d9c, 0x1d9c, 'c'), (0x1da0, 0x1da0, 'f'), (0x1dbb, 0x1dbb, 'z'), (0x2071, 0x2071, 'i'),
   (0x207f, 0x207f, 'n'), (0x2090, 0x2090, 'a'), (0x2091, 0x2091, 'e'), (0x2092, 0x2092, 'o'),
   (0x2093, 0x2093, 'x'), (0x2095, 0x2095, 'h'), (0x2096, 0x2099, 'k'), (0x209a, 0x209a, 'p'),
   (0x209b, 0x209c, 's'), (0x209d, 0x209d, 'w'), (0x209e, 0x209f, 'y'), (0x210a, 0x210a, 'g'),
   (0x210e, 0x210e, 'h'), (0x2113, 0x2113, 'l'), (0x212f, 0x212f, 'e'), (0x2134, 0x2134, 'o'),
   (0x2139, 0x2139, 'i'), (0x2146, 0x2147, 'd'), (0x2148, 0x2149, 'i'), (0x2170, 0x2170, 'i'),
   (0x2174, 0x2174, 'v'), (0x2179, 0x2179, 'x'), (0x217c, 0x217c, 'l'), (0x217d, 0x217e, 'c'),
   (0x217f, 0x217f, 'm'), (0x24d0, 0x24e9, 'a'), (0x2c7c, 0x2c7c, 'j'), (0xff41, 0xff5a, 'a'),
   (0x107a5, 0x107a5, 'q'), (0x1d41a, 0x1d433, 'a'), (0x1d44e, 0x1d454, 'a'),
   (0x1d456, 0x1d467, 'i'), (0x1d482, 0x1d49b, 'a'), (0x1d4b6, 0x1d4b9, 'a'),
   (0x1d4bb, 0x1d4bb, 'f'), (0x1d4bd, 0x1d4c3, 'h'), (0x1d4c5, 0x1d4cf, 'p'),
   (0x1d4ea, 0x1d503, 'a'), (0x1d51e, 0x1d537, 'a'), (0x1d552, 0x1d56b, 'a'),
   (0x1d586, 0x1d59f, 'a'), (0x1d5ba, 0x1d5d3, 'a'), (0x1d5ee, 0x1d607, 'a'),
   (0x1d622, 0x1d63b, 'a'), (0x1d656, 0x1d66f, 'a'), (0x1d68a, 0x1d6a3, 'a')]

/-- Characters that stand for several small letters, among them the signs of units that are written
as one. -/
def ligatures : List (Nat × String) :=
  [(0x133, "ij"), (0x1c9, "lj"), (0x1cc, "nj"), (0x1f3, "dz"), (0x2171, "ii"), (0x2172, "iii"),
   (0x2173, "iv"), (0x2175, "vi"), (0x2176, "vii"), (0x2177, "viii"), (0x2178, "ix"),
   (0x217a, "xi"), (0x217b, "xii"), (0x32cd, "erg"), (0x3372, "da"), (0x3374, "bar"),
   (0x3376, "pc"), (0x3377, "dm"), (0x3388, "cal"), (0x3389, "kcal"), (0x338e, "mg"),
   (0x338f, "kg"), (0x3396, "ml"), (0x3397, "dl"), (0x3398, "kl"), (0x3399, "fm"), (0x339a, "nm"),
   (0x339c, "mm"), (0x339d, "cm"), (0x339e, "km"), (0x33ad, "rad"), (0x33b0, "ps"), (0x33b1, "ns"),
   (0x33b3, "ms"), (0x33c4, "cc"), (0x33c5, "cd"), (0x33ca, "ha"), (0x33cc, "in"), (0x33cf, "kt"),
   (0x33d0, "lm"), (0x33d1, "ln"), (0x33d2, "log"), (0x33d3, "lx"), (0x33d4, "mb"),
   (0x33d5, "mil"), (0x33d6, "mol"), (0x33db, "sr"), (0x33ff, "gal"), (0xfb00, "ff"),
   (0xfb01, "fi"), (0xfb02, "fl"), (0xfb03, "ffi"), (0xfb04, "ffl"), (0xfb05, "st"),
   (0xfb06, "st")]

/-- Characters that stand for a blank and some marks, and two that stand for several words. -/
def spacingMarks : List (Nat × List Nat) :=
  [(0xa8, [0x20, 0x308]), (0xaf, [0x20, 0x304]), (0xb4, [0x20, 0x301]), (0xb8, [0x20, 0x327]),
   (0x2d8, [0x20, 0x306]), (0x2d9, [0x20, 0x307]), (0x2da, [0x20, 0x30a]), (0x2db, [0x20, 0x328]),
   (0x2dc, [0x20, 0x303]), (0x2dd, [0x20, 0x30b]), (0x37a, [0x20, 0x345]), (0x384, [0x20, 0x301]),
   (0x385, [0x20, 0x308, 0x301]), (0x1fbd, [0x20, 0x313]), (0x1fbf, [0x20, 0x313]),
   (0x1fc0, [0x20, 0x342]), (0x1fc1, [0x20, 0x308, 0x342]), (0x1fcd, [0x20, 0x313, 0x300]),
   (0x1fce, [0x20, 0x313, 0x301]), (0x1fcf, [0x20, 0x313, 0x342]), (0x1fdd, [0x20, 0x314, 0x300]),
   (0x1fde, [0x20, 0x314, 0x301]), (0x1fdf, [0x20, 0x314, 0x342]), (0x1fed, [0x20, 0x308, 0x300]),
   (0x1fee, [0x20, 0x308, 0x301]), (0x1ffd, [0x20, 0x301]), (0x1ffe, [0x20, 0x314]),
   (0x2017, [0x20, 0x333]), (0x203e, [0x20, 0x305]), (0x309b, [0x20, 0x3099]),
   (0x309c, [0x20, 0x309a]), (0xfc5e, [0x20, 0x64c, 0x651]), (0xfc5f, [0x20, 0x64d, 0x651]),
   (0xfc60, [0x20, 0x64e, 0x651]), (0xfc61, [0x20, 0x64f, 0x651]), (0xfc62, [0x20, 0x650, 0x651]),
   (0xfc63, [0x20, 0x651, 0x670]), (0xfe49, [0x20, 0x305]), (0xfe4a, [0x20, 0x305]),
   (0xfe4b, [0x20, 0x305]), (0xfe4c, [0x20, 0x305]), (0xfe70, [0x20, 0x64b]),
   (0xfe72, [0x20, 0x64c]), (0xfe74, [0x20, 0x64d]), (0xfe76, [0x20, 0x64e]),
   (0xfe78, [0x20, 0x64f]), (0xfe7a, [0x20, 0x650]), (0xfe7c, [0x20, 0x651]),
   (0xfe7e, [0x20, 0x652]), (0xffe3, [0x20, 0x304]),
   (0xfdfa, [0x635, 0x644, 0x649, 0x20, 0x627, 0x644, 0x644, 0x647, 0x20, 0x639, 0x644, 0x64a,
    0x647, 0x20, 0x648, 0x633, 0x644, 0x645]),
   (0xfdfb, [0x62c, 0x644, 0x20, 0x62c, 0x644, 0x627, 0x644, 0x647])]

/-- The letters and blanks that a character stands for; the character itself when it stands for
none. -/
def decompose (c : Char) : List Char :=
  let n := c.toNat
  if n < 0x80 then [c]
  else if isBlank c then [' ']
  else
    match letterRuns.find? fun (first, last, _) => first ≤ n && n ≤ last with
    | some (first, _, letter) => [Char.ofNat (letter.toNat + (n - first))]
    | none =>
      match ligatures.find? fun (code, _) => code == n with
      | some (_, letters) => letters.toList
      | none =>
        match spacingMarks.find? fun (code, _) => code == n with
        | some (_, codes) => codes.map Char.ofNat
        | none => [c]

/-- The words of a phrase, with every letter in disguise replaced by what it stands for. -/
def plainWords (s : String) : List String :=
  (words (s.toList.flatMap decompose)).map String.ofList

end CashWallet.Text
