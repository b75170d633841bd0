import CashWallet.Peer.Frame
import CashWallet.Proofs.Transaction.Codec
import CashWallet.Proofs.Wire.Delimited

/-!
# `CashWallet/Proofs/Peer/Delimited.lean` — nothing is read but what is all there

Transactions, blocks, rows of headers, locators, tokens and whole frames are decoded from the front
of a string. **What is decoded depends on the bytes that it takes and on no others, and no part of
them would do** (`decoders_selfDelimiting`): neither a string that goes on nor one that breaks off
is ever taken for something else.

A reader that is delimited says so together with a number of bytes that it takes in any case, and
the numbers add up along a `do` as the bytes do. They are there for the counts in front of rows,
which are guarded by how much is left: each guard has to be seen to ask for no more than the row
behind it takes (`CountedRow.le_room`), 41 bytes an input, 9 an output, 10 a transaction, 81 an
entry of a row of headers, 32 a name, and with the names of a locator the name to stop at. A guard
that asked for more would refuse a string that ends with the row, and pass it once more bytes stood
behind.

The relay field of a handshake is the one field that is read only when bytes are left. It stands at
the end of a payload, whose length is in the frame; a handshake by itself would not be delimited.
-/

set_option autoImplicit false

namespace CashWallet

open Reader

/-! ## Rows and their checks -/

/-- The kinds of elements that are counted. -/
inductive CountedRow
  | inputs
  | outputs
  | transactions
  | headers
  | names

namespace CountedRow

/-- The fewest bytes of an element. -/
def least : CountedRow → Nat
  | inputs => 41
  | outputs => 9
  | transactions => 10
  | headers => 81
  | names => 32

/-- What is taken behind the row and counts for its check. -/
def behind : CountedRow → Nat
  | names => 32
  | _ => 0

/-- How many elements the check lets pass when so many bytes are left. -/
def room : CountedRow → Nat → Nat
  | inputs, available => available / Tx.leastInput
  | outputs, available => available / Tx.leastOutput
  | transactions, available => available / Block.leastTransaction
  | headers, available => available / (BlockHeader.headerSize + 1)
  | names, available => available / 32 - 1

/-- **No check asks for more than is taken behind it.** -/
theorem le_room (row : CountedRow) {n available : Nat}
    (h : n * row.least + row.behind ≤ available) : n ≤ row.room available := by
  cases row with
  | inputs => exact (Nat.le_div_iff_mul_le (by decide)).mpr h
  | outputs => exact (Nat.le_div_iff_mul_le (by decide)).mpr h
  | transactions => exact (Nat.le_div_iff_mul_le (by decide)).mpr h
  | headers => exact (Nat.le_div_iff_mul_le (by decide)).mpr h
  | names =>
    -- One name more than are counted: the locator has the name to stop at behind them.
    have hroom : n + 1 ≤ available / 32 := by
      rw [Nat.le_div_iff_mul_le (by decide), Nat.succ_mul]
      exact h
    exact Nat.le_sub_one_of_lt hroom

end CountedRow

/-! ## Inputs, outputs and transactions -/

/-- Of an input with nothing to unlock it there are still 41 bytes. -/
theorem TxInput.delimits (label : String) :
    (read label).Delimits (32 + (4 + (1 + 4))) := by
  refine Delimits.hash256.bind fun prevHash => ?_
  refine Delimits.uint32.bind fun prevIndex => ?_
  refine Delimits.varBytes.bind fun unlocking => ?_
  exact Delimits.uint32.bind_pure fun sequence =>
    derive label prevHash prevIndex ⟨unlocking⟩ sequence

theorem TxOutput.delimits (label : String) : (read label).Delimits (8 + 1) := by
  refine Delimits.uint64.bind fun value => ?_
  exact Delimits.varBytes.bind_pure fun locking => derive label value ⟨locking⟩

namespace Tx

/-- A version, two counts and a lock time are taken in any case. -/
theorem delimits_parts (label : String) :
    (readParts label).Delimits (4 + (1 + (1 + 4))) := by
  refine Delimits.uint32.fields.bind fun version => ?_
  refine Delimits.elements (by decide) (TxInput.delimits label) fun inputs => ?_
  refine Delimits.elements (by decide) (TxOutput.delimits label) fun outputs => ?_
  exact Delimits.uint32.fields.bind_pure fun lockTime => (version, inputs, outputs, lockTime)

/-- The name of a transaction is that of the bytes that are taken, so it is delimited with them. -/
theorem delimits (label : String) : (read label).Delimits (4 + (1 + (1 + 4))) := by
  intro b rest t h
  rw [read_eq] at h
  cases hparts : readParts label b with
  | mk o mid =>
    rw [hparts] at h
    cases o with
    | error e => cases h
    | ok parts =>
      cases h
      obtain ⟨x, rfl, hlen, hx⟩ := delimits_parts label _ _ _ hparts
      -- The name is hashed from `x`, in front of `rest'` as in front of `rest`.
      refine ⟨x, rfl, hlen, fun rest' => ?_⟩
      rw [read_eq, hx rest']
      simp only [List.length_append, Nat.add_sub_cancel, List.take_left]

end Tx

/-! ## Tokens -/

namespace CashToken

/-- The category and the flags are taken in any case. -/
theorem delimits_fields : readFields.Delimits (32 + 1) := by
  refine Delimits.hash256.bind fun category => Delimits.byte.before (n := 0) fun flags => ?_
  -- A field that is not announced takes nothing.
  have hamount (commitment : Bytes) : Delimits (do
      let amount ← if TokenFlag.isSet flags TokenFlag.amount then varInt else yield 0
      return (⟨category, flags, TokenFlag.capability? flags, commitment, amount⟩ : CashToken)) 0 :=
    .ite (fun _ => (Delimits.varInt.bind_pure _).weaken (Nat.zero_le 1))
      fun _ => (Delimits.pure 0).bind_pure _
  exact .ite (fun _ => (Delimits.varBytes.before hamount).weaken (Nat.zero_le 1))
    fun _ => (Delimits.pure []).bind hamount

theorem delimits : read.Delimits (1 + (32 + 1)) :=
  Delimits.byte.fields.bind fun _ => .ite (fun _ => delimits_fields.fields) fun _ => .fail _ _

end CashToken

/-! ## Headers, rows of headers, locators and blocks -/

namespace BlockHeader

theorem delimits : read.Delimits (4 + (32 + (32 + (4 + (1 + (3 + 4)))))) := by
  refine Delimits.int32.bind fun version => ?_
  refine Delimits.hash256.bind fun prevBlock => ?_
  refine Delimits.hash256.bind fun merkleRoot => ?_
  refine Delimits.uint32.bind fun timestamp => ?_
  refine Delimits.byte.bind fun exponent => ?_
  refine (Delimits.fixed 3).bind fun significand => ?_
  exact Delimits.uint32.bind_pure fun nonce => BlockHeader.mk version prevBlock merkleRoot timestamp
    exponent significand nonce

/-- An entry of a row is a header and a count of transactions, which nobody looks at. -/
theorem delimits_entry : readEntry.Delimits (headerSize + 1) :=
  delimits.bind fun h => Delimits.varInt.bind_pure fun _ => h

theorem delimits_row : readRow.Delimits (1 + 0) :=
  Delimits.counted (fun count => (delimits_entry.times count.toNat).fields)
    fun _ _ hle => Nat.not_lt.mpr (CountedRow.headers.le_room hle)

end BlockHeader

theorem BlockLocator.delimits : read.Delimits (4 + (1 + 32)) := by
  refine Delimits.uint32.fields.bind fun version => ?_
  refine Delimits.counted (fun count => (Delimits.hash256.times count.toNat).fields.bind fun known =>
    Delimits.hash256.fields.bind_pure _) fun count available hle => ?_
  exact Nat.not_lt.mpr (CountedRow.names.le_room hle)

theorem Block.delimits (label : String) :
    (read label).Delimits (BlockHeader.headerSize + (1 + 0)) := by
  refine BlockHeader.delimits.fields.bind fun header => ?_
  refine Delimits.counted (fun count => ((Tx.delimits label).times count.toNat).bind_pure _)
    fun count available hle => ?_
  exact Nat.not_lt.mpr (CountedRow.transactions.le_room hle)

/-! ## Frames -/

namespace Frame

/-- The payload of a frame is as long as the header says, whatever is read from it. -/
theorem delimits_payload (command : Bytes) (length : Nat) (expected : Bytes) :
    Delimits (do
      let payload ← (Reader.take length).fields
      if checksum payload ≠ expected then Reader.fail (.badChecksum expected (checksum payload))
      else
        match Message.decode (commandText command) payload with
        | .ok m => return m
        | .error e => Reader.fail e) length := by
  refine (Delimits.take length).fields.before (n := 0) fun payload => .ite (fun _ => .fail _ _) ?_
  intro _
  cases Message.decode (commandText command) payload with
  | ok m => exact .pure m
  | error e => exact .fail e 0

theorem delimits : read.Delimits (4 + (commandSize + (4 + 4))) := by
  refine (Delimits.take 4).fields.bind fun mark => Delimits.ite (fun _ => .fail _ _) fun _ => ?_
  refine (Delimits.take commandSize).fields.bind fun command => ?_
  refine (Delimits.natLE 4).fields.bind fun length => ?_
  refine (Delimits.take 4).fields.before (n := length) fun expected => ?_
  exact (delimits_payload command length expected).guarded fun available hle => Nat.not_lt.mpr hle

end Frame

/-! ## All of them -/

/-- A token is split off after as many bytes as its reader takes. -/
theorem CashToken.split_map_length (script : Bytes) :
    (split script).map (fun (token, rest) => (token, script.length - rest.length)) =
      read.measure script := by
  unfold split Reader.measure
  obtain ⟨o, rest⟩ := read script
  cases o with
  | ok token => rfl
  | error e => rfl

/-- **What is decoded is all there and depends on nothing else.** Whenever one of the decoders takes
some bytes from the front of a string, they are in it; the decoder takes the same bytes for the same
value whatever stands behind them; and it fails on every part of them that breaks off. -/
theorem decoders_selfDelimiting (label : String) :
    IsSelfDelimiting (Tx.read label).measure ∧
      IsSelfDelimiting (Block.read label).measure ∧
      IsSelfDelimiting BlockHeader.readRow.measure ∧
      IsSelfDelimiting BlockLocator.read.measure ∧
      IsSelfDelimiting (fun script =>
        (CashToken.split script).map fun (token, rest) => (token, script.length - rest.length)) ∧
      IsSelfDelimiting Frame.decode := by
  refine ⟨(Tx.delimits label).isSelfDelimiting, (Block.delimits label).isSelfDelimiting,
    BlockHeader.delimits_row.isSelfDelimiting, BlockLocator.delimits.isSelfDelimiting, ?_,
    Frame.delimits.isSelfDelimiting⟩
  simp only [CashToken.split_map_length]
  exact CashToken.delimits.isSelfDelimiting

end CashWallet
