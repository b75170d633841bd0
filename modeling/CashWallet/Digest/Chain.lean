import CashWallet.Digest.Sha2

/-!
# `CashWallet/Digest/Chain.lean` — RIPEMD-160, and the two compound hashes of the chain

Blocks, transactions and frames are identified by SHA-256 applied twice; keys and scripts are
shortened to 20 bytes by RIPEMD-160 of SHA-256. These two are the only hashes that the rest of the
library names, and `Hash160` carries the length of the second in its type, so that a lock made from
one needs no check.

RIPEMD-160 runs two lines of five times sixteen steps over the same block, with different orders of
its words, different shifts and constants, and the mixing functions in opposite orders; their
results are added crosswise. A line is a fold over its list of steps, and the tables of a line are
written as five rows of sixteen, one row a round, as its designers print them. Words are read least
significant byte first, and so is the length behind the message, both unlike SHA-256.

The digest is 20 bytes by construction (`length_digest`). That the two compound hashes tell messages
apart is not claimed here nor anywhere else in this library: what depends on it says so in its
statement, as an alternative in which two different messages with one hash are exhibited.
-/

set_option autoImplicit false

/-! ## RIPEMD-160 -/

namespace CashWallet.Ripemd160

/-- The five words that a block is worked into. -/
structure State where
  a : UInt32
  b : UInt32
  c : UInt32
  d : UInt32
  e : UInt32

def start : State :=
  ⟨0x67452301, 0xefcdab89, 0x98badcfe, 0x10325476, 0xc3d2e1f0⟩

/-- The five mixing functions, each used for sixteen steps. -/
def mix (i : Nat) (x y z : UInt32) : UInt32 :=
  match i with
  | 0 => x ^^^ y ^^^ z
  | 1 => (x &&& y) ||| ((~~~ x) &&& z)
  | 2 => (x ||| (~~~ y)) ^^^ z
  | 3 => (x &&& z) ||| (y &&& (~~~ z))
  | _ => x ^^^ (y ||| (~~~ z))

/-- Which message word each step of the left line takes. -/
def leftWords : List (List Nat) :=
  [[0, 1, 2, 3, 4, 5, 6, 7, 8, 9, 10, 11, 12, 13, 14, 15],
   [7, 4, 13, 1, 10, 6, 15, 3, 12, 0, 9, 5, 2, 14, 11, 8],
   [3, 10, 14, 4, 9, 15, 8, 1, 2, 7, 0, 6, 13, 11, 5, 12],
   [1, 9, 11, 10, 0, 8, 12, 4, 13, 3, 7, 15, 14, 5, 6, 2],
   [4, 0, 5, 9, 7, 12, 2, 10, 14, 1, 3, 8, 11, 6, 15, 13]]

def rightWords : List (List Nat) :=
  [[5, 14, 7, 0, 9, 2, 11, 4, 13, 6, 15, 8, 1, 10, 3, 12],
   [6, 11, 3, 7, 0, 13, 5, 10, 14, 15, 8, 12, 4, 9, 1, 2],
   [15, 5, 1, 3, 7, 14, 6, 9, 11, 8, 12, 2, 10, 0, 4, 13],
   [8, 6, 4, 1, 3, 11, 15, 0, 5, 12, 2, 13, 9, 7, 10, 14],
   [12, 15, 10, 4, 1, 5, 8, 7, 6, 2, 13, 14, 0, 3, 9, 11]]

def leftShifts : List (List UInt32) :=
  [[11, 14, 15, 12, 5, 8, 7, 9, 11, 13, 14, 15, 6, 7, 9, 8],
   [7, 6, 8, 13, 11, 9, 7, 15, 7, 12, 15, 9, 11, 7, 13, 12],
   [11, 13, 6, 7, 14, 9, 13, 15, 14, 8, 13, 6, 5, 12, 7, 5],
   [11, 12, 14, 15, 14, 15, 9, 8, 9, 14, 5, 6, 8, 6, 5, 12],
   [9, 15, 5, 11, 6, 8, 13, 12, 5, 12, 13, 14, 11, 8, 5, 6]]

def rightShifts : List (List UInt32) :=
  [[8, 9, 9, 11, 13, 15, 15, 5, 7, 7, 8, 11, 14, 14, 12, 6],
   [9, 13, 15, 7, 12, 8, 9, 11, 7, 7, 12, 7, 6, 15, 13, 11],
   [9, 7, 15, 11, 8, 6, 6, 14, 12, 13, 5, 14, 13, 13, 7, 5],
   [15, 5, 8, 11, 14, 14, 6, 14, 6, 9, 12, 9, 12, 5, 15, 8],
   [8, 5, 12, 9, 12, 5, 14, 6, 8, 13, 6, 5, 15, 13, 11, 11]]

/-- What is added in each round of the left line; nothing in the first, where the right line adds
nothing in the last. -/
def leftConstants : List UInt32 :=
  [0x00000000, 0x5a827999, 0x6ed9eba1, 0x8f1bbcdc, 0xa953fd4e]

def rightConstants : List UInt32 :=
  [0x50a28be6, 0x5c4dd124, 0x6d703ef3, 0x7a6d76e9, 0x00000000]

/-- The word turned to the left, by a distance between 0 and 32. -/
def rotl (x n : UInt32) : UInt32 :=
  (x <<< n) ||| (x >>> (32 - n))

/-- Four bytes as a word, least significant byte first. -/
def word (b : Bytes) : UInt32 :=
  b.foldr (fun x acc => (acc <<< 8) ||| x.toUInt32) 0

def wordBytes (x : UInt32) : Bytes :=
  [x.toUInt8, (x >>> 8).toUInt8, (x >>> 16).toUInt8, (x >>> 24).toUInt8]

/-- One step: the mixing function in use, the sum of constant and message word, and the shift. -/
def step (mixing : Nat) (s : State) (kx shift : UInt32) : State :=
  let t := rotl (s.a + mix mixing s.b s.c s.d + kx) shift + s.e
  ⟨s.e, t, s.b, rotl s.c 10, s.d⟩

/-- Sixteen steps with one mixing function and one constant. The places are below sixteen, so the
default is never taken. -/
def runRound (words : List UInt32) (s : State) (mixing : Nat) (k : UInt32) (order : List Nat)
    (shifts : List UInt32) : State :=
  (order.zip shifts).foldl (fun s (i, n) => step mixing s (words.getD i 0 + k) n) s

def runLine (words : List UInt32) (s : State) (mixings : List Nat) (ks : List UInt32)
    (orders : List (List Nat)) (shifts : List (List UInt32)) : State :=
  ((mixings.zip ks).zip (orders.zip shifts)).foldl
    (fun s ((m, k), (order, turns)) => runRound words s m k order turns) s

/-- Both lines start from the same words, and the words they end in are added crosswise to them. -/
def compress (s : State) (block : Bytes) : State :=
  let words := (Bytes.pieces 4 16 block).map word
  let l := runLine words s [0, 1, 2, 3, 4] leftConstants leftWords leftShifts
  let r := runLine words s [4, 3, 2, 1, 0] rightConstants rightWords rightShifts
  ⟨s.b + l.c + r.d, s.c + l.d + r.e, s.d + l.e + r.a, s.e + l.a + r.b, s.a + l.b + r.c⟩

def State.toBytes (s : State) : Bytes :=
  wordBytes s.a ++ wordBytes s.b ++ wordBytes s.c ++ wordBytes s.d ++ wordBytes s.e

def digest (message : Bytes) : Bytes :=
  let filled := Digest.padded 64 (Bytes.ofNatLE 8 (8 * message.length)) message
  ((Digest.blocks 64 filled).foldl compress start).toBytes

@[simp] theorem length_digest (message : Bytes) : (digest message).length = 20 := by
  simp [digest, State.toBytes, wordBytes]

end CashWallet.Ripemd160

/-! ## Compound hashes -/

namespace CashWallet.Digest

/-- SHA-256 twice: the hash of blocks, of transactions and of frames. -/
def sha256d (b : Bytes) : Bytes :=
  Sha256.digest (Sha256.digest b)

/-- RIPEMD-160 of SHA-256: the hash of keys and scripts. -/
def hash160 (b : Bytes) : Bytes :=
  Ripemd160.digest (Sha256.digest b)

@[simp] theorem length_sha256d (b : Bytes) : (sha256d b).length = 32 := by
  simp [sha256d]

@[simp] theorem length_hash160 (b : Bytes) : (hash160 b).length = 20 := by
  simp [hash160]

end CashWallet.Digest

namespace CashWallet

/-- The 20 bytes to which a payment is locked. -/
structure Hash160 where
  bytes : Bytes
  length_bytes : bytes.length = 20
  deriving DecidableEq

namespace Hash160

def ofContent (content : Bytes) : Hash160 :=
  ⟨Digest.hash160 content, Digest.length_hash160 content⟩

/-- A string of the right length, taken for the hash that it is meant to be. -/
def ofBytes? (b : Bytes) : Option Hash160 :=
  if h : b.length = 20 then some ⟨b, h⟩ else none

end Hash160

end CashWallet
