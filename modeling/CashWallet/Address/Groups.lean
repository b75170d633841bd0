import CashWallet.Bytes

/-!
# `CashWallet/Address/Groups.lean` — rows of groups of bits, and their checksum

The text of an address has one letter for every five bits. Two things are done to its content on the
way: the bytes are cut into groups of five bits (`Regroup`), and eight more groups are computed from
the label and the content together and put behind it (`Checksum`). Both act on rows of small numbers
and know nothing of letters, labels or addresses.

**Regrouping** reads a row of groups of `source` bits each as one long row of bits and cuts it into
groups of `target` bits. What is left over at the end is filled up with zeros (`fill`), or it has to
be what filling up would have added: fewer than `source` bits, all zero (`isFilling`). A group of
more than eight bits does not fit a byte; only its low eight bits are kept.

**The checksum** takes a row of groups as the coefficients of a polynomial over the field of 32
elements and reduces it modulo a fixed polynomial of degree eight; the remainder is eight groups of
five bits. Each step is linear over exclusive or, which is what lets eight appended groups complete
any row in exactly one way, and what makes a burst of errors show. What these two facts come to is
in `CashWallet/Proofs/Address/`.
-/

set_option autoImplicit false

/-! ## The same bits in groups of another size -/

namespace CashWallet.Regroup

/-- Bits that do not yet make a group: their value and how many they are. -/
structure Pending where
  value : Nat
  bits : Nat
  deriving Repr, DecidableEq

/-- The groups of the new size that are complete, from the high end of the bits. -/
def wholeGroups (target : Nat) (p : Pending) : Bytes :=
  (List.range (p.bits / target)).map fun i =>
    UInt8.ofNat ((p.value >>> (p.bits - target * (i + 1))) % (1 <<< target))

def leftover (target : Nat) (p : Pending) : Pending :=
  ⟨p.value % (1 <<< (p.bits % target)), p.bits % target⟩

def push (source : Nat) (p : Pending) (group : UInt8) : Pending :=
  ⟨p.value <<< source + group.toNat, p.bits + source⟩

/-- The remainder after a row of further groups. -/
def run (source target : Nat) : Pending → Bytes → Bytes × Pending
  | p, [] => ([], p)
  | p, group :: rest =>
    let q := push source p group
    let (groups, last) := run source target (leftover target q) rest
    (wholeGroups target q ++ groups, last)

/-- The last group, with zeros behind the bits that are left over. -/
def fill (target : Nat) (p : Pending) : Bytes :=
  if p.bits = 0 then []
  else [UInt8.ofNat ((p.value <<< (target - p.bits)) % (1 <<< target))]

/-- A row of groups in another size, the last group filled up. -/
def padded (source target : Nat) (groups : Bytes) : Bytes :=
  let (out, last) := run source target ⟨0, 0⟩ groups
  out ++ fill target last

def tooWide? (source : Nat) (groups : Bytes) : Option UInt8 :=
  groups.find? fun v => v.toNat >>> source != 0

/-- Whether what is left over is no more than the filling of a row of groups. -/
def isFilling (source : Nat) (p : Pending) : Bool :=
  p.bits < source && p.value == 0

end CashWallet.Regroup

/-! ## The checksum -/

namespace CashWallet.Checksum

/-- What is added back for each of the five bits that a step shifts out, lowest bit first. -/
def generators : List Nat :=
  [0x98f2bc8e61, 0x79b76d99e2, 0xf33e5fb3c4, 0xae2eabe2a8, 0x1e4f43e470]

/-- The sum of what is added back for the bits that are shifted out. -/
def feedback (out : Nat) : Nat :=
  generators.zipIdx.foldl (fun acc (g, i) => if out.testBit i then acc ^^^ g else acc) 0

/-- One more coefficient: the remainder is multiplied by the unknown, the coefficient is added, and
what has come out at the top is added back in its reduced form. -/
def step (state : Nat) (group : Nat) : Nat :=
  ((state &&& 0x7ffffffff) <<< 5) ^^^ group ^^^ feedback (state >>> 35)

def run (state : Nat) (groups : Bytes) : Nat :=
  groups.foldl (fun c v => step c v.toNat) state

/-- The remainder of a row of groups, in a form in which a complete row gives zero. -/
def polymod (groups : Bytes) : Nat :=
  run 1 groups ^^^ 1

def groupsOf (remainder : Nat) : Bytes :=
  (List.range 8).map fun i => UInt8.ofNat ((remainder >>> (5 * (7 - i))) % 32)

/-- The groups that complete a row: appended to it, they make its remainder zero. -/
def completion (groups : Bytes) : Bytes :=
  groupsOf (polymod (groups ++ List.replicate 8 0))

end CashWallet.Checksum
