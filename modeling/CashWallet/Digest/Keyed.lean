import CashWallet.Digest.Sha2

/-!
# `CashWallet/Digest/Keyed.lean` — keyed hashes and key stretching

A keyed hash hashes the message behind one disguise of the key and the result behind another
(`hmac`). Stretching repeats the keyed hash on its own output and adds up all outputs
(`stretchedBlock`), so that a guess at a short secret costs as much as the number of rounds.

Both are given for any hash function with its block size (`HashFunction`), and used with two of
them: signatures take their numbers from the keyed SHA-256, and everything between a phrase and a
key is the keyed SHA-512. Of stretching only the first block is here, since one block of SHA-512 is
the whole of a seed.

A key of more than one block is hashed before it is used, and a key of exactly one block is not.
That is the only case distinction of the construction.
-/

set_option autoImplicit false

namespace CashWallet.Digest

/-- A hash function with the length of the blocks that it reads, which a keyed hash needs to
know. -/
structure HashFunction where
  blockSize : Nat
  digest : Bytes → Bytes

def sha256 : HashFunction := ⟨64, Sha256.digest⟩

def sha512 : HashFunction := ⟨128, Sha512.digest⟩

/-- The key made exactly one block long: hashed if longer, then filled with zeros. -/
def keyBlock (f : HashFunction) (key : Bytes) : Bytes :=
  let short := if key.length > f.blockSize then f.digest key else key
  short ++ List.replicate (f.blockSize - short.length) 0

/-- The keyed hash of a message: the disguises are one byte repeated, 5C outside and 36 inside. -/
def hmac (f : HashFunction) (key message : Bytes) : Bytes :=
  let block := keyBlock f key
  f.digest (block.map (· ^^^ 0x5c) ++ f.digest (block.map (· ^^^ 0x36) ++ message))

def hmacSha256 (key message : Bytes) : Bytes :=
  hmac sha256 key message

/-- The keyed hash from which keys are derived; half of it is a key, the other half goes on. -/
def hmacSha512 (key message : Bytes) : Bytes :=
  hmac sha512 key message

@[simp] theorem length_hmacSha512 (key message : Bytes) : (hmacSha512 key message).length = 64 := by
  simp [hmacSha512, hmac, sha512]

/-- The sum of `rounds` further outputs of a keyed hash, each of which is fed the one before. -/
def sumOutputs (keyed : Bytes → Bytes) : Nat → Bytes → Bytes → Bytes
  | 0, _, sum => sum
  | rounds + 1, last, sum =>
    let next := keyed last
    sumOutputs keyed rounds next (Bytes.xor sum next)

/-- The first block of a stretched secret: the sum of `rounds` outputs of the keyed hash, the first
of which is fed the salt and the number of the block. -/
def stretchedBlock (keyed : Bytes → Bytes) (salt : Bytes) (rounds : Nat) : Bytes :=
  let first := keyed (salt ++ Bytes.ofNatBE 4 1)
  sumOutputs keyed (rounds - 1) first first

def stretchSha512 (secret salt : Bytes) (rounds : Nat) : Bytes :=
  stretchedBlock (hmacSha512 secret) salt rounds

end CashWallet.Digest
