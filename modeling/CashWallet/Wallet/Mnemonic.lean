import CashWallet.Curve.Suite
import CashWallet.Digest.Sha2
import CashWallet.Text.Words
import CashWallet.Wallet.WordList

/-!
# `CashWallet/Wallet/Mnemonic.lean` — phrases that a wallet grows from

A phrase is a row of 12 to 24 words. Their places in the word list, eleven bits each, are one long
number: random bits and behind them the first bits of their own hash, one for every 32. The seed of
a wallet is stretched from the phrase as text, with single blanks between the words.

Reading is forgiving about blanks and disguised letters and strict about the rest; it looks at the
number of words, then at each word from the left, then at the check bits. The first fault in this
order is reported, and a word that is not in the list by its index from zero.

A phrase that has been read is kept by the places of its words. Its text is made of them, in plain
letters with single blanks, and it is this text that the seed is stretched from: two spellings of
one phrase lead to one wallet.
-/

set_option autoImplicit false

namespace CashWallet

inductive MnemonicError
  | wordCount (count : Nat)
  | unknownWord (index : Nat)
  | invalidChecksum
  deriving Repr, DecidableEq

def MnemonicError.message : MnemonicError → String
  | .wordCount n =>
    s!"mnemonic has an invalid word count: {n}. Word count must be 12, 15, 18, 21, or 24"
  | .unknownWord i => s!"mnemonic contains an unknown word (word {i})"
  | .invalidChecksum => "the mnemonic has an invalid checksum"

/-- A phrase, by the places of its words. -/
structure Mnemonic where
  places : List Nat
  deriving DecidableEq

namespace Mnemonic

def isWordCount (n : Nat) : Bool :=
  12 ≤ n && n ≤ 24 && n % 3 == 0

/-- The number that places write, eleven bits a place. -/
def number (places : List Nat) : Nat :=
  places.foldl (fun acc i => acc * 2048 + i) 0

/-- The check bits of some entropy: the first of its hash, one for every four bytes. -/
def checkBits (entropy : Bytes) : Nat :=
  Bytes.toNatBE ((Sha256.digest entropy).take 1) >>> (8 - entropy.length / 4)

/-- The random bits of a phrase, as bytes, and its check bits. -/
def parts (places : List Nat) : Bytes × Nat :=
  -- Three words hold 33 bits, one of which is a check bit.
  let count := places.length / 3
  (Bytes.ofNatBE (4 * count) (number places >>> count), number places % (1 <<< count))

def isChecked (places : List Nat) : Bool :=
  let (entropy, check) := parts places
  checkBits entropy == check

/-- The places of some words, the first of which has the given index. -/
def placesFrom : Nat → List String → Except MnemonicError (List Nat)
  | _, [] => .ok []
  | index, word :: rest =>
    match WordList.place? word with
    | none => .error (.unknownWord index)
    | some place =>
      match placesFrom (index + 1) rest with
      | .ok places => .ok (place :: places)
      | .error e => .error e

def parse (text : String) : Except MnemonicError Mnemonic :=
  let words := Text.plainWords text
  if !isWordCount words.length then .error (.wordCount words.length)
  else
    match placesFrom 0 words with
    | .error e => .error e
    | .ok places => if isChecked places then .ok ⟨places⟩ else .error .invalidChecksum

def words (m : Mnemonic) : List String :=
  m.places.map WordList.word

def text (m : Mnemonic) : String :=
  " ".intercalate m.words

/-- The places that write a number, most significant first. -/
def placesOf : Nat → Nat → List Nat
  | 0, _ => []
  | count + 1, n => placesOf count (n / 2048) ++ [n % 2048]

/-- The phrase that holds some entropy, of which there are sixteen to thirty-two bytes. -/
def ofEntropy (entropy : Bytes) : Mnemonic :=
  let count := entropy.length / 4
  ⟨placesOf (3 * count) (Bytes.toNatBE entropy <<< count + checkBits entropy)⟩

/-- How many random bytes a new phrase takes: 32 make a phrase of 24 words. -/
def entropySize : Nat := 32

def seed [KeySuite] (m : Mnemonic) : Bytes :=
  KeySuite.stretch (Text.utf8 m.text)

end Mnemonic

end CashWallet
