import CashWallet.Bytes

/-!
# `CashWallet/Wire/Reader.lean` — reading from the front of a byte string

A reader takes what it needs from the front of a byte string and leaves the rest. **It says what is
left in either case**, also when it fails: a read that breaks off may already have taken the length
in front of a field, and whoever looks at the position afterwards sees that. The only readers that
touch the bytes are `take` and `fixed`; all others are put together from them, so that "no read goes
past the end" is a fact about these two alone.

## Numbers of one to nine bytes

Counts and lengths are written in as few bytes as their size class needs: one byte below `0xfd`,
else a marker byte and a little-endian number of two, four or eight bytes. **Writing always picks
the smallest class; reading accepts any**, so a value has one shortest form and up to three longer
ones. The marker is taken before its number is looked for: a number cut short leaves the reader
behind the marker.
-/

set_option autoImplicit false

/-! ## Readers -/

namespace CashWallet

/-- Why a field cannot be read: the string ends before it does, or the length in front of it
promises more than there is. -/
inductive ReadError
  | endOfData (needed available : Nat)
  | lengthTooLarge (declared available : Nat)
  deriving Repr, DecidableEq

/-- Both messages say what was asked for first and what there was second. -/
def ReadError.message : ReadError → String
  | .endOfData n a => s!"unexpected end of data: needed {n} bytes, {a} available"
  | .lengthTooLarge n a => s!"length prefix says {n} bytes, {a} available"

/-- What a read makes of a byte string: its outcome, and the bytes it leaves. -/
def Reader (ε α : Type) : Type :=
  Bytes → Except ε α × Bytes

namespace Reader

variable {ε ε' α β : Type}

def run (r : Reader ε α) (b : Bytes) : Except ε α × Bytes :=
  r b

/-- The reader that takes nothing and cannot fail. -/
def yield (a : α) : Reader ε α :=
  fun b => (.ok a, b)

/-- The reader that takes nothing and fails. What readers before it took stays taken. -/
def fail (e : ε) : Reader ε α :=
  fun b => (.error e, b)

/-- One reader behind the other: the second starts where the first has stopped, and what the first
leaves when it fails is what is left. -/
def andThen (r : Reader ε α) (f : α → Reader ε β) : Reader ε β := fun b =>
  match r b with
  | (.ok a, rest) => f a rest
  | (.error e, rest) => (.error e, rest)

instance : Monad (Reader ε) where
  pure := yield
  bind := andThen

/-- The same reader with its failures renamed; what is taken and what is left are the same. -/
def mapError (f : ε → ε') (r : Reader ε α) : Reader ε' α := fun b =>
  match r b with
  | (.ok a, rest) => (.ok a, rest)
  | (.error e, rest) => (.error (f e), rest)

def remaining : Reader ε Nat :=
  fun b => (.ok b.length, b)

def peek : Reader ε Bytes :=
  fun b => (.ok b, b)

/-- The next `n` bytes. When there are fewer, none is taken. -/
def take (n : Nat) : Reader ReadError Bytes := fun b =>
  let taken := b.take n
  if taken.length < n then (.error (.endOfData n b.length), b) else (.ok taken, b.drop n)

/-- The next `n` bytes, with their number on record. When there are fewer, none is taken. -/
def fixed (n : Nat) : Reader ReadError (FixedBytes n) := fun b =>
  if h : (b.take n).length < n then (.error (.endOfData n b.length), b)
  else (.ok ⟨b.take n, by simp only [List.length_take] at h ⊢; omega⟩, b.drop n)

/-- So many elements in a row. The number is known in advance, so the recursion is on it and not on
the bytes. -/
def times (r : Reader ε α) : Nat → Reader ε (List α)
  | 0 => yield []
  | n + 1 => r.andThen fun a => (times r n).andThen fun as => yield (a :: as)

/-- The outcome alone. -/
def outcome (r : Reader ε α) (b : Bytes) : Except ε α :=
  (r b).1

/-- The value read from the front together with the number of bytes it took. -/
def measure (r : Reader ε α) (b : Bytes) : Except ε (α × Nat) :=
  match r b with
  | (.ok a, rest) => .ok (a, b.length - rest.length)
  | (.error e, _) => .error e

/-! ## How the operations act on a byte string -/

@[simp] theorem pure_apply (a : α) (b : Bytes) : (pure a : Reader ε α) b = (.ok a, b) := rfl

theorem bind_apply (r : Reader ε α) (f : α → Reader ε β) (b : Bytes) :
    (r >>= f) b = match r b with
      | (.ok a, rest) => f a rest
      | (.error e, rest) => (.error e, rest) := rfl

theorem bind_of_ok {r : Reader ε α} {f : α → Reader ε β} {b rest : Bytes} {a : α}
    (h : r b = (.ok a, rest)) : (r >>= f) b = f a rest := by
  simp [bind_apply, h]

theorem bind_of_error {r : Reader ε α} {f : α → Reader ε β} {b rest : Bytes} {e : ε}
    (h : r b = (.error e, rest)) : (r >>= f) b = (.error e, rest) := by
  simp [bind_apply, h]

/-- Bytes that were written in front are taken off again. -/
theorem take_append (x rest : Bytes) : take x.length (x ++ rest) = (.ok x, rest) := by
  simp [take]

theorem take_of_le {n : Nat} {b : Bytes} (h : n ≤ b.length) :
    take n b = (.ok (b.take n), b.drop n) := by
  have hn : ¬ (b.take n).length < n := by simp; omega
  simp only [take, hn, if_false]

theorem take_of_lt {n : Nat} {b : Bytes} (h : b.length < n) :
    take n b = (.error (.endOfData n b.length), b) := by
  have hn : (b.take n).length < n := by simp; omega
  simp only [take, hn, if_true]

end Reader

end CashWallet

/-! ## Numbers of one to nine bytes -/

namespace CashWallet

namespace VarInt

/-- How many bytes the shortest form of a value takes. -/
def width (v : UInt64) : Nat :=
  if v.toNat < 0xfd then 1
  else if v.toNat ≤ 0xffff then 3
  else if v.toNat ≤ 0xffffffff then 5
  else 9

def encode (v : UInt64) : Bytes :=
  if v.toNat < 0xfd then Bytes.ofNatLE 1 v.toNat
  else if v.toNat ≤ 0xffff then 0xfd :: Bytes.ofNatLE 2 v.toNat
  else if v.toNat ≤ 0xffffffff then 0xfe :: Bytes.ofNatLE 4 v.toNat
  else 0xff :: Bytes.ofNatLE 8 v.toNat

/-- The shortest form of a count. A count past 64 bits is cut, as the conversion that stands here
cuts it; no list in a memory has so many elements. -/
def ofCount (n : Nat) : Bytes :=
  encode (UInt64.ofNat n)

def countWidth (n : Nat) : Nat :=
  width (UInt64.ofNat n)

theorem length_encode (v : UInt64) : (encode v).length = width v := by
  unfold encode width
  split
  · simp
  · split
    · simp
    · split <;> simp

end VarInt

namespace Reader

def natLE (width : Nat) : Reader ReadError Nat := do
  let b ← take width
  return Bytes.toNatLE b

def byte : Reader ReadError UInt8 := do
  return UInt8.ofNat (← natLE 1)

/-- A number in any of its forms. -/
def varInt : Reader ReadError UInt64 := do
  let first ← natLE 1
  if first < 0xfd then return UInt64.ofNat first
  else if first = 0xfd then return UInt64.ofNat (← natLE 2)
  else if first = 0xfe then return UInt64.ofNat (← natLE 4)
  else return UInt64.ofNat (← natLE 8)

/-- A length that the bytes behind it can fill. -/
def length : Reader ReadError Nat := do
  let declared ← varInt
  let available ← remaining
  if available < declared.toNat then fail (.lengthTooLarge declared.toNat available)
  else return declared.toNat

/-- Bytes behind their length. When the length has been read there are enough bytes, so it is the
length alone that can fail. -/
def varBytes : Reader ReadError Bytes := do
  take (← length)

end Reader

end CashWallet
