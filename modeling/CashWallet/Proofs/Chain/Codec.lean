import CashWallet.Chain.Block
import CashWallet.Proofs.Transaction.Codec

/-!
# `CashWallet/Proofs/Chain/Codec.lean` — headers, rows of headers, locators and blocks are read back

Each of the four is read from its bytes whatever stands behind them. Headers take a fixed number of
bytes and need no condition. The other three begin with a count, and the guard behind each count has
its own way to reckon: a row of headers by whole entries, a block by the fewest bytes of a
transaction, and a locator by names **less one**, because the name to stop at needs room too. A
count that was written passes all three.

The one condition besides is that the bytes are fewer than 2⁶⁴, since a longer count would be cut
when it is written. It is asked of the bytes as a whole and not of the count, so that whoever puts
these into a message has a single bound to carry.

A block is read back only if what is kept beside the parts of its transactions is what a reader puts
there (`Block.IsConsistent`): a name and addresses that do not follow from the bytes are not in
them.
-/

set_option autoImplicit false

namespace CashWallet

open Reader

/-! ## Headers -/

namespace BlockHeader

theorem length_encode (h : BlockHeader) : h.encode.length = headerSize := by
  simp only [encode, List.length_append, List.length_cons, Bytes.length_ofNatLE,
    h.prevBlock.length_bytes, h.merkleRoot.length_bytes, h.significand.length_bytes, headerSize]

theorem reads (h : BlockHeader) : Reads read h.encode h := by
  have hbytes : h.encode = Bytes.ofNatLE 4 h.version.toUInt32.toNat ++ (h.prevBlock.bytes ++
      (h.merkleRoot.bytes ++ (Bytes.ofNatLE 4 h.timestamp.toNat ++ ([h.exponent] ++
        (h.significand.bytes ++ Bytes.ofNatLE 4 h.nonce.toNat))))) := by
    simp only [encode, List.append_assoc, List.singleton_append]
  rw [hbytes, read]
  refine (Reads.int32 h.version).bind ?_
  refine (Reads.hash256 h.prevBlock).bind ?_
  refine (Reads.hash256 h.merkleRoot).bind ?_
  refine (Reads.uint32 h.timestamp).bind ?_
  refine (Reads.byte h.exponent).bind ?_
  refine (Reads.fixed h.significand).bind ?_
  exact (Reads.uint32 h.nonce).bind_pure fun nonce => BlockHeader.mk h.version h.prevBlock
    h.merkleRoot h.timestamp h.exponent h.significand nonce

/-! ## Rows of headers -/

/-- An entry is read with the count of zero that is written behind it. -/
theorem reads_entry (h : BlockHeader) : Reads readEntry (h.encode ++ [0]) h :=
  h.reads.bind ((Reads.varInt 0).bind_pure fun _ => h)

/-- The count of a row is at most the number of entries that fit into what is left, since they are
there. -/
theorem reads_row {hs : List BlockHeader} (hlen : (encodeRow hs).length < UInt64.size) :
    Reads readRow (encodeRow hs) hs := by
  have hentry : ∀ h ∈ hs, headerSize + 1 ≤ (h.encode ++ [0]).length := by
    intro h _
    rw [List.length_append, length_encode]
    exact Nat.le_refl _
  have hrow := mul_length_le_length_flatMap hentry
  rw [encodeRow, List.length_append] at hlen
  rw [headerSize] at hrow
  rw [encodeRow, readRow]
  refine Reads.counted (by omega) fun count hcount => ?_
  rw [hcount]
  refine ⟨fun available hle => ?_, (Reads.times fun h _ => h.reads_entry).fields⟩
  rw [Nat.not_lt, Nat.le_div_iff_mul_le (by decide), headerSize]
  omega

end BlockHeader

/-! ## Locators -/

/-- The names in front of the last one leave room for it, so the guard that counts one too many
passes. -/
theorem BlockLocator.reads {l : BlockLocator} (hlen : l.encode.length < UInt64.size) :
    Reads read l.encode l := by
  have hnames := mul_length_le_length_flatMap fun h (_ : h ∈ l.known) =>
    Nat.le_of_eq h.length_bytes.symm
  have hbytes : l.encode = Bytes.ofNatLE 4 l.protocolVersion.toNat ++
      (VarInt.ofCount l.known.length ++ (l.known.flatMap Hash256.bytes ++ l.stop.bytes)) := by
    simp only [encode, List.append_assoc]
  rw [hbytes] at hlen
  simp only [List.length_append] at hlen
  rw [hbytes, read]
  refine (Reads.uint32 l.protocolVersion).fields.bind ?_
  refine Reads.counted (by omega) fun count hcount => ?_
  rw [hcount]
  refine ⟨fun available hle => ?_, ?_⟩
  · -- The guard takes one name off, and the name to stop at is the one.
    rw [List.length_append, l.stop.length_bytes] at hle
    have hroom : l.known.length + 1 ≤ available / 32 := by
      rw [Nat.le_div_iff_mul_le (by decide)]
      omega
    omega
  · refine (Reads.times fun h _ => Reads.hash256 h).fields.bind ?_
    exact (Reads.hash256 l.stop).fields.bind_pure
      fun stop => BlockLocator.mk l.protocolVersion l.known stop

/-! ## Blocks -/

namespace Block

/-- What is kept beside the parts of the transactions is what a reader puts there. -/
def IsConsistent (label : String) (b : Block) : Prop :=
  ∀ t ∈ b.transactions, t.IsConsistent label

/-- No transaction is shorter than the guard of a block takes it to be. -/
theorem least_le_length_encode (t : Tx) : leastTransaction ≤ t.encode.length := by
  have hins := length_ofCount_pos t.inputs.length
  have houts := length_ofCount_pos t.outputs.length
  rw [t.encode_eq]
  simp only [List.length_append, Bytes.length_ofNatLE, leastTransaction]
  omega

theorem reads {label : String} {b : Block} (h : b.IsConsistent label)
    (hlen : b.encode.length < UInt64.size) : Reads (read label) b.encode b := by
  have hrow := mul_length_le_length_flatMap fun t (_ : t ∈ b.transactions) =>
    least_le_length_encode t
  have hbytes : b.encode = b.header.encode ++ (VarInt.ofCount b.transactions.length ++
      b.transactions.flatMap Tx.encode) := by
    simp only [encode, List.append_assoc]
  rw [hbytes] at hlen
  simp only [List.length_append] at hlen
  rw [leastTransaction] at hrow
  rw [hbytes, read]
  refine b.header.reads.fields.bind ?_
  refine Reads.counted (by omega) fun count hcount => ?_
  rw [hcount]
  refine ⟨fun available hle => ?_, ?_⟩
  · rw [Nat.not_lt, Nat.le_div_iff_mul_le (by decide), leastTransaction]
    omega
  · refine Reads.bind_pure
      (Reads.times fun t ht => Tx.reads (h t ht) (Tx.countsFit_of_length_lt ?_))
      fun transactions => Block.mk b.header transactions
    have := length_le_length_flatMap Tx.encode ht
    omega

end Block

end CashWallet
