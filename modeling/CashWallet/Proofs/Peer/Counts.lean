import CashWallet.Proofs.Peer.Delimited

/-!
# `CashWallet/Proofs/Peer/Counts.lean` — the checks of counts refuse nothing that could be read

Rows of five kinds stand behind their counts: inputs, outputs, transactions, headers and names.
Between a count and its row there is a check of how many elements the bytes that are left have room
for, so that a count from a stranger reserves no more than was sent. **The checks never decide what
is read** (`checks_decide_nothing`): a reader without them reads the same value from the same bytes,
only it finds out later that something is missing.

So that "the same reader without its checks" is one thing and not two, every reader is written here
once, with a switch for the checks of all its rows. Switched on, it is the reader that runs; the
question is what switching them off changes.

One direction is a matter of leaving out a refusal. The other is that each check asks for no more
than is taken behind it (`CountedRow.le_room`), which is where a bound one too large would show.
With the names of a locator the name to stop at is taken as well, and the check relies on that.
-/

set_option autoImplicit false

namespace CashWallet

open Reader

/-! ## Counts with their checks -/

namespace CountedRow

/-- What is said when more elements are counted. -/
def refusal : CountedRow → Nat → Nat → DecodeError
  | inputs, count, available => .tooManyElements count available
  | outputs, count, available => .tooManyElements count available
  | transactions, count, available => .tooManyTransactions count available
  | headers, count, available =>
    .lengthMismatch (saturate64 (count * (BlockHeader.headerSize + 1))) available
  | names, count, available =>
    .lengthMismatch (saturate64 (saturate64 (count + 1) * 32)) available

/-- Reads the count of a row, with its check or without. -/
def count (checked : Bool) (row : CountedRow) : Reader DecodeError Nat := do
  let count ← Reader.varInt.fields
  let available ← Reader.remaining
  if checked ∧ row.room available < count.toNat then
    Reader.fail (row.refusal count.toNat available)
  else return count.toNat

/-- A count with room has room for its elements. -/
theorem mul_least_le (row : CountedRow) {n available : Nat} (h : n ≤ row.room available) :
    n * row.least ≤ available := by
  cases row with
  | inputs => exact (Nat.le_div_iff_mul_le (by decide)).mp h
  | outputs => exact (Nat.le_div_iff_mul_le (by decide)).mp h
  | transactions => exact (Nat.le_div_iff_mul_le (by decide)).mp h
  | headers => exact (Nat.le_div_iff_mul_le (by decide)).mp h
  | names => exact (Nat.le_div_iff_mul_le (by decide)).mp (Nat.le_trans h (Nat.sub_le _ 1))

/-- A count passes its check when it can be read and there is room for so many. -/
theorem count_true_eq_ok_iff {row : CountedRow} {b rest : Bytes} {n : Nat} :
    row.count true b = (.ok n, rest) ↔
      row.count false b = (.ok n, rest) ∧ n ≤ row.room rest.length := by
  unfold count
  simp only [Reader.bind_apply, Reader.remaining]
  -- With the check or without it the count is read first, and alike.
  obtain ⟨o, mid⟩ := Reader.varInt.fields b
  cases o with
  | error e =>
    constructor
    · intro h
      cases h
    · rintro ⟨h, -⟩
      cases h
  | ok declared =>
    simp only [true_and, Bool.false_eq_true, false_and, if_false]
    by_cases hp : row.room mid.length < declared.toNat
    · rw [if_pos hp]
      constructor
      · intro h
        cases h
      · rintro ⟨h, hroom⟩
        cases h
        exact absurd hroom (Nat.not_le_of_lt hp)
    · rw [if_neg hp]
      constructor
      · intro h
        cases h
        exact ⟨rfl, Nat.le_of_not_lt hp⟩
      · rintro ⟨h, -⟩
        exact h

/-- A check stands between a count and whatever is read behind it. -/
theorem count_true_bind {β : Type} (row : CountedRow) (k : Nat → Reader DecodeError β) :
    row.count true >>= k =
      (Reader.varInt.fields >>= fun count => Reader.remaining >>= fun available =>
        if row.room available < count.toNat then Reader.fail (row.refusal count.toNat available)
        else k count.toNat) := by
  unfold count
  simp only [bind_assoc, ite_fail_bind, true_and]

theorem elementCount_leastInput :
    Reader.elementCount Tx.leastInput = CountedRow.inputs.count true := by
  unfold Reader.elementCount count
  simp only [true_and]
  rfl

theorem elementCount_leastOutput :
    Reader.elementCount Tx.leastOutput = CountedRow.outputs.count true := by
  unfold Reader.elementCount count
  simp only [true_and]
  rfl

end CountedRow

/-! ## The readers with a switch -/

def Tx.readPartsWith (checked : Bool) (label : String) :
    Reader DecodeError (UInt32 × List TxInput × List TxOutput × UInt32) := do
  let version ← Reader.uint32.fields
  let inputCount ← CountedRow.inputs.count checked
  let inputs ← ((TxInput.read label).times inputCount).fields
  let outputCount ← CountedRow.outputs.count checked
  let outputs ← ((TxOutput.read label).times outputCount).fields
  let lockTime ← Reader.uint32.fields
  return (version, inputs, outputs, lockTime)

def Tx.readWith (checked : Bool) (label : String) : Reader DecodeError Tx := do
  let start ← Reader.peek
  let (version, inputs, outputs, lockTime) ← readPartsWith checked label
  let left ← Reader.remaining
  return ⟨version, inputs, outputs, lockTime, .ofContent (start.take (start.length - left)), label⟩

/-- The transactions of a block are read with the checks of the block. -/
def Block.readWith (checked : Bool) (label : String) : Reader DecodeError Block := do
  let header ← BlockHeader.read.fields
  let count ← CountedRow.transactions.count checked
  let transactions ← (Tx.readWith checked label).times count
  return ⟨header, transactions⟩

def BlockHeader.readRowWith (checked : Bool) : Reader DecodeError (List BlockHeader) := do
  let count ← CountedRow.headers.count checked
  (readEntry.times count).fields

def BlockLocator.readWith (checked : Bool) : Reader DecodeError BlockLocator := do
  let version ← Reader.uint32.fields
  let count ← CountedRow.names.count checked
  let known ← (Reader.hash256.times count).fields
  let stop ← Reader.hash256.fields
  return ⟨version, known, stop⟩

/-! ### Switched on, they are the readers that run -/

theorem Tx.readParts_eq (label : String) : readParts label = readPartsWith true label := by
  unfold readParts readPartsWith
  rw [CountedRow.elementCount_leastInput, CountedRow.elementCount_leastOutput]

theorem Tx.read_eq_readWith (label : String) : read label = readWith true label := by
  unfold read readWith
  rw [readParts_eq]

theorem Block.read_eq_readWith (label : String) : read label = readWith true label := by
  unfold read readWith
  simp only [CountedRow.count_true_bind, Tx.read_eq_readWith]
  rfl

theorem BlockHeader.readRow_eq_readRowWith : readRow = readRowWith true :=
  (CountedRow.count_true_bind .headers fun count => (readEntry.times count).fields).symm

theorem BlockLocator.read_eq_readWith : read = readWith true := by
  unfold read readWith
  simp only [CountedRow.count_true_bind]
  rfl

/-! ## Readers that agree -/

namespace Reader

variable {ε α β : Type}

/-- Two readers succeed on the same strings, with the same values, and leave the same bytes. -/
def Agree (r r' : Reader ε α) : Prop :=
  ∀ (b rest : Bytes) (a : α), r b = (.ok a, rest) ↔ r' b = (.ok a, rest)

namespace Agree

theorem refl (r : Reader ε α) : Agree r r :=
  fun _ _ _ => Iff.rfl

theorem symm {r r' : Reader ε α} (h : Agree r r') : Agree r' r :=
  fun b rest a => (h b rest a).symm

/-- What one pair of readers reads in a row the other does. -/
theorem bind_imp {r r' : Reader ε α} {f f' : α → Reader ε β} (hr : Agree r r')
    (hf : ∀ a, Agree (f a) (f' a)) {b rest : Bytes} {c : β}
    (h : (r >>= f) b = (.ok c, rest)) : (r' >>= f') b = (.ok c, rest) := by
  obtain ⟨a, mid, ha, hc⟩ := bind_eq_ok h
  rw [bind_of_ok ((hr _ _ _).mp ha)]
  exact (hf a _ _ _).mp hc

theorem bind {r r' : Reader ε α} {f f' : α → Reader ε β} (hr : Agree r r')
    (hf : ∀ a, Agree (f a) (f' a)) : Agree (r >>= f) (r' >>= f') :=
  fun _ _ _ => ⟨bind_imp hr hf, bind_imp hr.symm fun a => (hf a).symm⟩

theorem times {r r' : Reader ε α} (h : Agree r r') : ∀ n : Nat, Agree (r.times n) (r'.times n)
  | 0 => refl _
  | n + 1 => h.bind fun _ => (times h n).bind fun _ => refl _

/-- **A check is not noticed when what is read behind it takes as much as it asks for.** The row is
read without the check, and so it was there. -/
theorem counted (row : CountedRow) {k k' : Nat → Reader DecodeError β}
    (hk : ∀ n, (k n).Delimits (n * row.least + row.behind)) (hagree : ∀ n, Agree (k n) (k' n)) :
    Agree (row.count true >>= k) (row.count false >>= k') := by
  intro b rest c
  constructor
  · intro h
    obtain ⟨n, mid, hcount, hc⟩ := bind_eq_ok h
    rw [bind_of_ok (CountedRow.count_true_eq_ok_iff.mp hcount).1]
    exact (hagree n _ _ _).mp hc
  · intro h
    obtain ⟨n, mid, hcount, hc⟩ := bind_eq_ok h
    have hrow := (hagree n _ _ _).mpr hc
    have hroom := row.le_room ((hk n).le_length hrow)
    rw [bind_of_ok (CountedRow.count_true_eq_ok_iff.mpr ⟨hcount, hroom⟩)]
    exact hrow

theorem measure {r r' : Reader ε α} (h : Agree r r') (b : Bytes) (a : α) (used : Nat) :
    r.measure b = .ok (a, used) ↔ r'.measure b = .ok (a, used) := by
  simp only [measure_eq_ok_iff, h b _ a]

end Agree

end Reader

/-! ## Switched off, they agree with them -/

theorem Tx.agree_parts (label : String) :
    Agree (readPartsWith true label) (readPartsWith false label) := by
  refine (Agree.refl _).bind fun version => ?_
  -- What is taken behind the inputs is not needed for their check.
  refine Agree.counted .inputs (fun n => ?_) fun n => (Agree.refl _).bind fun inputs => ?_
  · refine ((TxInput.delimits label).times n).fields.before (n := 1 + 4) fun inputs => ?_
    rw [← CountedRow.elementCount_leastOutput]
    exact Delimits.elements (by decide) (TxOutput.delimits label) fun outputs =>
      Delimits.uint32.fields.bind_pure _
  refine Agree.counted .outputs (fun n => ?_) fun n => Agree.refl _
  exact ((TxOutput.delimits label).times n).fields.before fun outputs =>
    Delimits.uint32.fields.bind_pure _

theorem Tx.agree (label : String) : Agree (readWith true label) (readWith false label) :=
  (Agree.refl _).bind fun _ => (agree_parts label).bind fun _ => Agree.refl _

theorem Block.agree (label : String) : Agree (readWith true label) (readWith false label) := by
  refine (Agree.refl _).bind fun header => ?_
  refine Agree.counted .transactions (fun n => ?_) fun n =>
    ((Tx.agree label).times n).bind fun _ => Agree.refl _
  rw [← Tx.read_eq_readWith]
  exact ((Tx.delimits label).times n).bind_pure _

theorem BlockHeader.agree_row : Agree (readRowWith true) (readRowWith false) :=
  Agree.counted .headers (fun n => (delimits_entry.times n).fields) fun _ => Agree.refl _

theorem BlockLocator.agree : Agree (readWith true) (readWith false) := by
  refine (Agree.refl _).bind fun version => ?_
  refine Agree.counted .names (fun n => ?_) fun n => Agree.refl _
  exact (Delimits.hash256.times n).fields.bind fun known => Delimits.hash256.fields.bind_pure _

/-- **The checks of counts decide nothing but when a reader gives up.** The readers that run are
those with the checks of all their rows switched on. They read a value from so many bytes exactly
when the readers with the checks switched off do; and a count that passes its check stands in front
of at least as many bytes as its elements take at the fewest. -/
theorem checks_decide_nothing (label : String) :
    (Tx.read label = Tx.readWith true label ∧
      ∀ b t used, (Tx.read label).measure b = .ok (t, used) ↔
        (Tx.readWith false label).measure b = .ok (t, used)) ∧
    (Block.read label = Block.readWith true label ∧
      ∀ b block used, (Block.read label).measure b = .ok (block, used) ↔
        (Block.readWith false label).measure b = .ok (block, used)) ∧
    (BlockHeader.readRow = BlockHeader.readRowWith true ∧
      ∀ b hs used, BlockHeader.readRow.measure b = .ok (hs, used) ↔
        (BlockHeader.readRowWith false).measure b = .ok (hs, used)) ∧
    (BlockLocator.read = BlockLocator.readWith true ∧
      ∀ b l used, BlockLocator.read.measure b = .ok (l, used) ↔
        (BlockLocator.readWith false).measure b = .ok (l, used)) ∧
    ∀ (row : CountedRow) (b : Bytes) (n : Nat) (rest : Bytes),
      row.count true b = (.ok n, rest) → n * row.least ≤ rest.length := by
  refine ⟨⟨Tx.read_eq_readWith label, ?_⟩, ⟨Block.read_eq_readWith label, ?_⟩,
    ⟨BlockHeader.readRow_eq_readRowWith, ?_⟩, ⟨BlockLocator.read_eq_readWith, ?_⟩,
    fun row b n rest hcount => ?_⟩
  · rw [Tx.read_eq_readWith]
    exact (Tx.agree label).measure
  · rw [Block.read_eq_readWith]
    exact (Block.agree label).measure
  · rw [BlockHeader.readRow_eq_readRowWith]
    exact BlockHeader.agree_row.measure
  · rw [BlockLocator.read_eq_readWith]
    exact BlockLocator.agree.measure
  · exact row.mul_least_le (CountedRow.count_true_eq_ok_iff.mp hcount).2

end CashWallet
