/-!
# `CashWallet/Bytes.lean` — byte strings and the numbers written in them

Everything that travels between wallets and nodes is a byte string, and every number in it has a
fixed width. A byte string is a list of bytes, so that a reader is a function on lists and its laws
are inductions.

A number is written least significant byte first or, reversed, most significant byte first. The
chain uses the first form nearly everywhere; the port of a node, the numbers in signatures and keys,
and the index of a derived key are written in the second. The laws of both forms are in
`Bytes/Digits.lean`.

Where a length is part of what a string *is*, as with the address of a node or the code that keys
are derived with, it is part of the type (`FixedBytes`), so that whoever is given one has nothing to
check.
-/

set_option autoImplicit false

namespace CashWallet

/-- A byte string, first byte first. -/
abbrev Bytes := List UInt8

namespace Bytes

/-! ## Little-endian numbers -/

/-- The `width` low-order base-256 digits of a number, least significant first. -/
def ofNatLE : Nat → Nat → Bytes
  | 0, _ => []
  | width + 1, value => UInt8.ofNat value :: ofNatLE width (value / 256)

/-- The number that a string writes, least significant byte first. Any string writes one, and the
empty string writes zero. -/
def toNatLE : Bytes → Nat
  | [] => 0
  | b :: rest => b.toNat + 256 * toNatLE rest

@[simp] theorem length_ofNatLE (width value : Nat) : (ofNatLE width value).length = width := by
  induction width generalizing value with
  | zero => rfl
  | succ width ih => simp [ofNatLE, ih]

/-! ## Big-endian numbers -/

/-- The `width` low-order base-256 digits of a number, most significant first. -/
def ofNatBE (width value : Nat) : Bytes :=
  (ofNatLE width value).reverse

def toNatBE (b : Bytes) : Nat :=
  toNatLE b.reverse

@[simp] theorem length_ofNatBE (width value : Nat) : (ofNatBE width value).length = width := by
  simp [ofNatBE]

/-! ## Padding and cutting -/

/-- The string made `width` long by zeros in front; a longer one is left alone. -/
def padLeft (width : Nat) (b : Bytes) : Bytes :=
  List.replicate (width - b.length) 0 ++ b

/-- So many pieces of one size, from the front. Where the string is too short the last ones are
short or empty; the callers cut strings that divide evenly. -/
def pieces (size : Nat) : Nat → Bytes → List Bytes
  | 0, _ => []
  | count + 1, b => b.take size :: pieces size count (b.drop size)

def xor (a b : Bytes) : Bytes :=
  List.zipWith (· ^^^ ·) a b

end Bytes

/-- A byte string whose length is part of its type. -/
structure FixedBytes (n : Nat) where
  bytes : Bytes
  length_bytes : bytes.length = n
  deriving DecidableEq

namespace FixedBytes

def zeros (n : Nat) : FixedBytes n :=
  ⟨List.replicate n 0, by simp⟩

instance {n : Nat} : Inhabited (FixedBytes n) := ⟨zeros n⟩

def ofBytes? (n : Nat) (b : Bytes) : Option (FixedBytes n) :=
  if h : b.length = n then some ⟨b, h⟩ else none

end FixedBytes

end CashWallet
