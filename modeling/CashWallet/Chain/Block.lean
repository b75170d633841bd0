import CashWallet.Transaction.Basic

/-!
# `CashWallet/Chain/Block.lean` — headers, blocks, and asking for them

A header is 80 bytes and names its block by their double hash. Headers are sent in rows, each
followed by a count of transactions, which is zero when written and not looked at when read. A block
is a header and its transactions.

Whoever asks for blocks or headers names blocks that he knows, the newest first, and the block to
stop at; the zero name asks for as many as the other side will send (`BlockLocator`).

All three readers meet a count from a stranger, and **a count that cannot be filled from the bytes
at hand is refused before anything is read**. The refusal tells how many bytes the count would need,
in a number that stops at the largest of 64 bits (`saturate64`), and each reader has its own idea of
the least size of an element:

* a header in a row takes its 80 bytes and at least one for the count behind it;
* a transaction in a block takes at least ten;
* a name in a locator takes 32, and room is kept for one more, the name to stop at.

The refusals differ too: a row of headers and a locator are refused for their length, a block for
its number of transactions.
-/

set_option autoImplicit false

/-! ## Headers -/

namespace CashWallet

/-- The header of a block. The target of its work is kept as it travels: an exponent and three bytes
of significand. -/
structure BlockHeader where
  version : Int32
  prevBlock : Hash256
  merkleRoot : Hash256
  timestamp : UInt32
  exponent : UInt8
  significand : FixedBytes 3
  nonce : UInt32
  deriving DecidableEq

/-- The number, or the largest of 64 bits when it is larger. -/
def saturate64 (n : Nat) : Nat :=
  min n (UInt64.size - 1)

namespace BlockHeader

def headerSize : Nat := 80

def encode (h : BlockHeader) : Bytes :=
  Bytes.ofNatLE 4 h.version.toUInt32.toNat ++ h.prevBlock.bytes ++ h.merkleRoot.bytes ++
    Bytes.ofNatLE 4 h.timestamp.toNat ++ h.exponent :: (h.significand.bytes ++
    Bytes.ofNatLE 4 h.nonce.toNat)

def read : Reader ReadError BlockHeader := do
  let version ← Reader.int32
  let prevBlock ← Reader.hash256
  let merkleRoot ← Reader.hash256
  let timestamp ← Reader.uint32
  let exponent ← Reader.byte
  let significand ← Reader.fixed 3
  let nonce ← Reader.uint32
  return ⟨version, prevBlock, merkleRoot, timestamp, exponent, significand, nonce⟩

/-- The name of the block, which is that of its header alone. -/
def hash (h : BlockHeader) : Hash256 :=
  .ofContent h.encode

/-- Headers in a row, each with a count of zero behind it. -/
def encodeRow (hs : List BlockHeader) : Bytes :=
  VarInt.ofCount hs.length ++ hs.flatMap fun h => h.encode ++ [0]

/-- Reads a header and the count behind it. -/
def readEntry : Reader ReadError BlockHeader := do
  let h ← read
  let _ ← Reader.varInt
  return h

/-- Reads headers in a row. What the counts behind them say is of no consequence. -/
def readRow : Reader DecodeError (List BlockHeader) := do
  let count ← Reader.varInt.fields
  let available ← Reader.remaining
  if available / (headerSize + 1) < count.toNat then
    Reader.fail (.lengthMismatch (saturate64 (count.toNat * (headerSize + 1))) available)
  else (readEntry.times count.toNat).fields

end BlockHeader

end CashWallet

/-! ## Blocks -/

namespace CashWallet

structure Block where
  header : BlockHeader
  transactions : List Tx
  deriving DecidableEq

namespace Block

/-- The fewest bytes of a transaction: a version, two counts of zero, and a lock time. -/
def leastTransaction : Nat := 10

def encode (b : Block) : Bytes :=
  b.header.encode ++ VarInt.ofCount b.transactions.length ++ b.transactions.flatMap Tx.encode

def hash (b : Block) : Hash256 :=
  b.header.hash

def read (label : String) : Reader DecodeError Block := do
  let header ← BlockHeader.read.fields
  let count ← Reader.varInt.fields
  let available ← Reader.remaining
  if available / leastTransaction < count.toNat then
    Reader.fail (.tooManyTransactions count.toNat available)
  else
    let transactions ← (Tx.read label).times count.toNat
    return ⟨header, transactions⟩

end Block

end CashWallet

/-! ## Asking for a stretch of the chain -/

namespace CashWallet

def protocolVersion : UInt32 := 70015

structure BlockLocator where
  protocolVersion : UInt32
  known : List Hash256
  stop : Hash256
  deriving DecidableEq

namespace BlockLocator

/-- Asks for headers from the beginning. -/
def everything : BlockLocator :=
  ⟨CashWallet.protocolVersion, [], .zero⟩

def encode (l : BlockLocator) : Bytes :=
  Bytes.ofNatLE 4 l.protocolVersion.toNat ++ VarInt.ofCount l.known.length ++
    l.known.flatMap Hash256.bytes ++ l.stop.bytes

/-- Reads a locator. The name to stop at needs room behind the names that are counted. -/
def read : Reader DecodeError BlockLocator := do
  let version ← Reader.uint32.fields
  let count ← Reader.varInt.fields
  let available ← Reader.remaining
  if available / 32 - 1 < count.toNat then
    Reader.fail (.lengthMismatch (saturate64 (saturate64 (count.toNat + 1) * 32)) available)
  else
    let known ← (Reader.hash256.times count.toNat).fields
    let stop ← Reader.hash256.fields
    return ⟨version, known, stop⟩

end BlockLocator

end CashWallet
