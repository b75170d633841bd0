import CashWallet.Proofs.Wire.Field
import CashWallet.Transaction.Basic

/-!
# `CashWallet/Proofs/Transaction/Codec.lean` — transactions are read back

A transaction keeps things that do not travel: the addresses and the tokens that its scripts show,
and its own name. `Tx.IsConsistent label` says that they are what a reader under that label puts
there, and then **the bytes of a transaction are read as the transaction, whatever stands behind
them** (`Tx.reads`).

The counts in front of the rows are guarded against more elements than the rest can hold. A row that
was written is never refused, because no element is written in fewer bytes than the guard reckons
with (`Reads.elements`); the bounds `leastInput` and `leastOutput` are used for nothing else.

The name is the hash of the bytes that were taken, so it can only be known when the last of them has
been read. Reading is cut in two for it: the parts are read first, by a reader like all the others
(`Tx.reads_parts`), and the name is taken of what the parts were read from (`Tx.read_eq`).

Counts and lengths have to be numbers of 64 bits to be written. They all are in a transaction of
less than 2⁶⁴ bytes (`Tx.countsFit_of_length_lt`).
-/

set_option autoImplicit false

namespace CashWallet

/-! ## Rows of elements behind their count -/

theorem length_ofCount_pos (n : Nat) : 1 ≤ (VarInt.ofCount n).length := by
  rw [VarInt.ofCount, VarInt.length_encode, VarInt.width]
  split
  · omega
  · split
    · omega
    · split <;> omega

theorem length_lt_length_varBytes (b : Bytes) : b.length < (varBytes b).length := by
  have hcount := length_ofCount_pos b.length
  rw [varBytes, List.length_append]
  omega

theorem mul_length_le_length_flatMap {α : Type} {enc : α → Bytes} {least : Nat} {as : List α}
    (h : ∀ a ∈ as, least ≤ (enc a).length) : least * as.length ≤ (as.flatMap enc).length := by
  induction as with
  | nil => simp
  | cons a as ih =>
    have ha := h a List.mem_cons_self
    have has := ih fun a' ha' => h a' (List.mem_cons_of_mem a ha')
    rw [List.flatMap_cons, List.length_append, List.length_cons, Nat.mul_succ]
    omega

theorem length_le_length_flatMap {α : Type} (enc : α → Bytes) {as : List α} {a : α}
    (h : a ∈ as) : (enc a).length ≤ (as.flatMap enc).length := by
  obtain ⟨before, after, rfl⟩ := List.append_of_mem h
  simp
  omega

/-- **The count of a row that was written passes the guard.** -/
theorem Reader.Reads.elements {α β : Type} {r : Reader ReadError α} {enc : α → Bytes}
    {least : Nat} {as : List α} {k : List α → Reader DecodeError β} {y : Bytes} {b : β}
    (hpos : 0 < least) (hcount : as.length < UInt64.size)
    (hleast : ∀ a ∈ as, least ≤ (enc a).length) (hr : ∀ a ∈ as, Reads r (enc a) a)
    (hk : Reads (k as) y b) :
    Reads (Reader.elementCount least >>= fun n => (r.times n).fields >>= k)
      (VarInt.ofCount as.length ++ (as.flatMap enc ++ y)) b := by
  have hrow := mul_length_le_length_flatMap hleast
  unfold Reader.elementCount
  simp only [bind_assoc, ite_fail_bind]
  refine counted hcount fun count hn => ?_
  rw [hn]
  refine ⟨fun available hle => ?_, (times hr).fields.bind hk⟩
  -- The row alone is as long as the guard asks, whatever stands behind it.
  rw [List.length_append] at hle
  rw [Nat.not_lt, Nat.le_div_iff_mul_le hpos, Nat.mul_comm]
  omega

/-! ## Inputs -/

namespace TxInput

/-- What is kept beside the parts of an input is what a reader puts there. -/
def IsConsistent (label : String) (i : TxInput) : Prop :=
  i.address = i.unlocking.payer? label

theorem least_le_length_encode (i : TxInput) : Tx.leastInput ≤ i.encode.length := by
  have hscript := length_lt_length_varBytes i.unlocking.bytes
  simp only [encode, outPointBytes, List.length_append, i.prevHash.length_bytes,
    Bytes.length_ofNatLE, Tx.leastInput]
  omega

theorem length_unlocking_le (i : TxInput) : i.unlocking.bytes.length ≤ i.encode.length := by
  have hscript := length_lt_length_varBytes i.unlocking.bytes
  simp only [encode, List.length_append]
  omega

theorem reads {label : String} {i : TxInput} (h : i.IsConsistent label)
    (hfit : i.unlocking.size < UInt64.size) : Reader.Reads (read label) i.encode i := by
  have hback : derive label i.prevHash i.prevIndex ⟨i.unlocking.bytes⟩ i.sequence = i := by
    rw [derive, ← h]
  have hbytes : i.encode = i.prevHash.bytes ++ (Bytes.ofNatLE 4 i.prevIndex.toNat ++
      (varBytes i.unlocking.bytes ++ Bytes.ofNatLE 4 i.sequence.toNat)) := by
    simp only [encode, outPointBytes, List.append_assoc]
  rw [hbytes, read]
  refine (Reader.Reads.hash256 i.prevHash).bind ?_
  refine (Reader.Reads.uint32 i.prevIndex).bind ?_
  refine (Reader.Reads.varBytes hfit).bind ?_
  have hlast := (Reader.Reads.uint32 i.sequence).bind_pure
    fun sequence => derive label i.prevHash i.prevIndex ⟨i.unlocking.bytes⟩ sequence
  rwa [hback] at hlast

end TxInput

/-! ## Outputs -/

namespace TxOutput

def IsConsistent (label : String) (o : TxOutput) : Prop :=
  (o.token, o.address) = inspect label o.locking

theorem least_le_length_encode (o : TxOutput) : Tx.leastOutput ≤ o.encode.length := by
  have hscript := length_lt_length_varBytes o.locking.bytes
  simp only [encode, List.length_append, Bytes.length_ofNatLE, Tx.leastOutput]
  omega

theorem length_locking_le (o : TxOutput) : o.locking.bytes.length ≤ o.encode.length := by
  have hscript := length_lt_length_varBytes o.locking.bytes
  simp only [encode, List.length_append]
  omega

theorem reads {label : String} {o : TxOutput} (h : o.IsConsistent label)
    (hfit : o.locking.size < UInt64.size) : Reader.Reads (read label) o.encode o := by
  have hback : derive label o.value ⟨o.locking.bytes⟩ = o := by
    rw [derive, ← h]
  rw [encode, read]
  refine (Reader.Reads.uint64 o.value).bind ?_
  have hlast := (Reader.Reads.varBytes hfit).bind_pure fun b => derive label o.value ⟨b⟩
  rwa [hback] at hlast

end TxOutput

/-! ## Transactions -/

namespace Tx

/-- What is kept beside the parts of a transaction is what a reader under the label puts there. -/
structure IsConsistent (label : String) (t : Tx) : Prop where
  label_eq : t.label = label
  hash_eq : t.hash = .ofContent t.encode
  inputs : ∀ i ∈ t.inputs, i.IsConsistent label
  outputs : ∀ o ∈ t.outputs, o.IsConsistent label

/-- Every count and every length that a transaction is written with is a number of 64 bits. -/
structure CountsFit (t : Tx) : Prop where
  inputs : t.inputs.length < UInt64.size
  outputs : t.outputs.length < UInt64.size
  unlocking : ∀ i ∈ t.inputs, i.unlocking.size < UInt64.size
  locking : ∀ o ∈ t.outputs, o.locking.size < UInt64.size

theorem encode_eq (t : Tx) :
    t.encode = Bytes.ofNatLE 4 t.version.toNat ++
      (VarInt.ofCount t.inputs.length ++ (t.inputs.flatMap TxInput.encode ++
        (VarInt.ofCount t.outputs.length ++ (t.outputs.flatMap TxOutput.encode ++
          Bytes.ofNatLE 4 t.lockTime.toNat)))) := by
  simp only [encode, encodeParts, List.append_assoc]

theorem length_rows_le (t : Tx) :
    (t.inputs.flatMap TxInput.encode).length ≤ t.encode.length ∧
      (t.outputs.flatMap TxOutput.encode).length ≤ t.encode.length := by
  rw [encode_eq]
  simp only [List.length_append]
  omega

/-- The rows and the scripts in a transaction are shorter than the whole. -/
theorem countsFit_of_length_lt {t : Tx} (hlen : t.encode.length < UInt64.size) : t.CountsFit := by
  obtain ⟨hins, houts⟩ := t.length_rows_le
  have hincount := mul_length_le_length_flatMap fun i (_ : i ∈ t.inputs) =>
    i.least_le_length_encode
  have houtcount := mul_length_le_length_flatMap fun o (_ : o ∈ t.outputs) =>
    o.least_le_length_encode
  rw [leastInput] at hincount
  rw [leastOutput] at houtcount
  refine ⟨by omega, by omega, fun i hi => ?_, fun o ho => ?_⟩
  · have hrow := length_le_length_flatMap TxInput.encode hi
    have hscript := i.length_unlocking_le
    rw [Script.size]
    omega
  · have hrow := length_le_length_flatMap TxOutput.encode ho
    have hscript := o.length_locking_le
    rw [Script.size]
    omega

theorem reads_parts {label : String} {t : Tx} (h : t.IsConsistent label) (hfit : t.CountsFit) :
    Reader.Reads (readParts label) t.encode (t.version, t.inputs, t.outputs, t.lockTime) := by
  rw [encode_eq, readParts]
  refine (Reader.Reads.uint32 t.version).fields.bind ?_
  refine Reader.Reads.elements (by decide) hfit.inputs (fun i _ => i.least_le_length_encode)
    (fun i hi => i.reads (h.inputs i hi) (hfit.unlocking i hi)) ?_
  refine Reader.Reads.elements (by decide) hfit.outputs (fun o _ => o.least_le_length_encode)
    (fun o ho => o.reads (h.outputs o ho) (hfit.locking o ho)) ?_
  exact (Reader.Reads.uint32 t.lockTime).fields.bind_pure
    fun lockTime => (t.version, t.inputs, t.outputs, lockTime)

/-- Reading a transaction is reading its parts; the name is that of the bytes that were taken. -/
theorem read_eq (label : String) (b : Bytes) :
    read label b =
      match readParts label b with
      | (.ok (version, inputs, outputs, lockTime), rest) =>
        (.ok ⟨version, inputs, outputs, lockTime, .ofContent (b.take (b.length - rest.length)),
          label⟩, rest)
      | (.error e, rest) => (.error e, rest) := by
  simp only [read, Reader.bind_apply, Reader.peek]
  obtain ⟨o, rest⟩ := readParts label b
  cases o with
  | ok parts => rfl
  | error e => rfl

/-- **A transaction is read from its bytes, whatever stands behind them.** -/
theorem reads {label : String} {t : Tx} (h : t.IsConsistent label) (hfit : t.CountsFit) :
    Reader.Reads (read label) t.encode t := by
  intro rest
  have hname : (t.encode ++ rest).take ((t.encode ++ rest).length - rest.length) = t.encode := by
    rw [List.length_append, Nat.add_sub_cancel, List.take_left]
  rw [read_eq, reads_parts h hfit rest]
  simp only [hname, ← h.hash_eq, ← h.label_eq]

end Tx

end CashWallet
