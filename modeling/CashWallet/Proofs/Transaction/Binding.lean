import CashWallet.Proofs.Transaction.Codec
import CashWallet.Proofs.Transaction.Commitment

/-!
# `CashWallet/Proofs/Transaction/Binding.lean` — what signatures bind

The converse of `Proofs/Transaction/Commitment.lean`: **calls that sign the same bytes agree on
everything that the bytes are made of** (`Tx.preimage_binding`). All parts of the layout but the
code have a fixed width, and the code tells its own length in front, so every part can be cut out
again.

Three of the parts are hashes of rows. Of these the bytes bind the hash alone; that the rows are the
same follows because no two rows are written alike, unless the two calls have found two strings with
the same hash (`Digest.Collide`). The strings are named, for two strings of that kind always exist.

No two rows are written alike, because each element can be read from its bytes whatever stands
behind it, and the row with it: spent outputs and sequence numbers by their width, payments by the
length in front of the script. Only for the last are the lengths of scripts asked to fit into 64
bits.
-/

set_option autoImplicit false

namespace CashWallet

open Reader

/-! ## Hashes -/

/-- Two different strings with the same hash. -/
def Digest.Collide (x y : Bytes) : Prop :=
  x ≠ y ∧ sha256d x = sha256d y

/-- Equal hashes are of equal strings, or else a collision was found. -/
theorem Digest.eq_or_collide {x y : Bytes} (h : sha256d x = sha256d y) : x = y ∨ Collide x y := by
  by_cases hxy : x = y
  · exact .inl hxy
  · exact .inr ⟨hxy, h⟩

/-! ## Rows are not written alike -/

/-- Data behind its length determines the data, whatever its length: the number in front says where
the data begins, and the end is the end of the string. -/
theorem varBytes_inj {b c : Bytes} (h : varBytes b = varBytes c) : b = c :=
  ((Reads.ofCount b.length).unique (Reads.ofCount c.length) h).2

/-- Reads what an input spends. -/
def OutPoint.read : Reader ReadError OutPoint := do
  let hash ← Reader.hash256
  let index ← Reader.uint32
  return ⟨hash, index⟩

namespace TxInput

theorem length_outPointBytes (i : TxInput) : i.outPointBytes.length = 36 := by
  rw [outPointBytes, List.length_append, i.prevHash.length_bytes, Bytes.length_ofNatLE]

theorem reads_outPoint (i : TxInput) : Reads OutPoint.read i.outPointBytes i.outPoint := by
  rw [outPointBytes, OutPoint.read]
  refine (Reads.hash256 i.prevHash).bind ?_
  exact (Reads.uint32 i.prevIndex).bind_pure fun index => OutPoint.mk i.prevHash index

/-- Rows of spent outputs are not written alike. -/
theorem outPoints_eq {is js : List TxInput}
    (h : is.flatMap outPointBytes = js.flatMap outPointBytes) :
    is.map outPoint = js.map outPoint := by
  refine Reads.map_eq_of_flatMap_eq (fun i hnil => ?_) (fun i _ => i.reads_outPoint)
    (fun j _ => j.reads_outPoint) h
  have hlen := i.length_outPointBytes
  rw [hnil] at hlen
  cases hlen

theorem sequences_eq {is js : List TxInput}
    (h : is.flatMap (fun i => Bytes.ofNatLE 4 i.sequence.toNat) =
      js.flatMap fun j => Bytes.ofNatLE 4 j.sequence.toNat) :
    is.map sequence = js.map sequence :=
  Reads.map_eq_of_flatMap_eq (fun _ => List.cons_ne_nil _ _) (fun i _ => Reads.uint32 i.sequence)
    (fun j _ => Reads.uint32 j.sequence) h

end TxInput

namespace TxOutput

/-- Reads what an output pays, and to which script. -/
def readPayment : Reader ReadError (UInt64 × Script) := do
  let value ← Reader.uint64
  let locking ← Reader.varBytes
  return (value, ⟨locking⟩)

theorem reads_payment {o : TxOutput} (hfit : o.locking.size < UInt64.size) :
    Reads readPayment o.encode o.payment := by
  rw [encode, readPayment]
  refine (Reads.uint64 o.value).bind ?_
  exact (Reads.varBytes hfit).bind_pure fun locking => (o.value, Script.mk locking)

theorem payments_eq {os ps : List TxOutput} (hos : ∀ o ∈ os, o.locking.size < UInt64.size)
    (hps : ∀ p ∈ ps, p.locking.size < UInt64.size)
    (h : os.flatMap encode = ps.flatMap encode) : os.map payment = ps.map payment := by
  refine Reads.map_eq_of_flatMap_eq (fun o hnil => ?_) (fun o ho => reads_payment (hos o ho))
    (fun p hp => reads_payment (hps p hp)) h
  have hlen := o.least_le_length_encode
  rw [hnil] at hlen
  cases hlen

end TxOutput

namespace Tx

/-! ## The layout -/

theorem length_committedPrevouts (t : Tx) (type : UInt32) :
    (t.committedPrevouts type).length = 32 := by
  rw [committedPrevouts]
  split
  · rfl
  · exact Digest.length_sha256d _

theorem length_committedSequences (t : Tx) (type : UInt32) :
    (t.committedSequences type).length = 32 := by
  rw [committedSequences]
  split
  · exact Digest.length_sha256d _
  · rfl

theorem length_committedOutputs (t : Tx) (index : Nat) (type : UInt32) :
    (t.committedOutputs index type).length = 32 := by
  rw [committedOutputs]
  split
  · exact Digest.length_sha256d _
  split
  · split
    · exact Digest.length_sha256d _
    · rfl
  · rfl

/-- The bytes that are signed at an input, given as it stands in the transaction. -/
def layout (t : Tx) (i : TxInput) (index : Nat) (code : Bytes) (type : UInt32) (value : UInt64) :
    Bytes :=
  Bytes.ofNatLE 4 t.version.toNat ++ t.committedPrevouts type ++ t.committedSequences type ++
    i.outPointBytes ++ varBytes code ++ Bytes.ofNatLE 8 value.toNat ++
    Bytes.ofNatLE 4 i.sequence.toNat ++ t.committedOutputs index type ++
    Bytes.ofNatLE 4 t.lockTime.toNat ++ Bytes.ofNatLE 4 type.toNat

theorem preimage_eq_ok {t : Tx} {index : Nat} {code content : Bytes} {type : UInt32}
    {value : UInt64} (h : t.preimage index code type value = .ok content) :
    ∃ i, t.inputs[index]? = some i ∧ t.layout i index code type value = content := by
  rw [preimage] at h
  cases hi : t.inputs[index]? with
  | none =>
    rw [hi] at h
    cases h
  | some i =>
    rw [hi] at h
    exact ⟨i, rfl, Except.ok.inj h⟩

/-- **Equal layouts have equal parts**, hashes included. -/
theorem layout_inj {s t : Tx} {i j : TxInput} {index index' : Nat} {code code' : Bytes}
    {type type' : UInt32} {value value' : UInt64}
    (h : s.layout i index code type value = t.layout j index' code' type' value') :
    (type = type' ∧ value = value' ∧ code = code' ∧ s.version = t.version ∧
      s.lockTime = t.lockTime ∧ i.outPoint = j.outPoint ∧ i.sequence = j.sequence) ∧
    s.committedPrevouts type = t.committedPrevouts type' ∧
      s.committedSequences type = t.committedSequences type' ∧
      s.committedOutputs index type = t.committedOutputs index' type' := by
  rw [layout, layout] at h
  -- Up to the code the parts are cut off from the end, and what is before the code from the front.
  obtain ⟨h, htype⟩ := List.append_inj' h (by rw [Bytes.length_ofNatLE, Bytes.length_ofNatLE])
  obtain ⟨h, hlockTime⟩ := List.append_inj' h (by rw [Bytes.length_ofNatLE, Bytes.length_ofNatLE])
  obtain ⟨h, houtputs⟩ :=
    List.append_inj' h (by rw [length_committedOutputs, length_committedOutputs])
  obtain ⟨h, hsequence⟩ := List.append_inj' h (by rw [Bytes.length_ofNatLE, Bytes.length_ofNatLE])
  obtain ⟨h, hvalue⟩ := List.append_inj' h (by rw [Bytes.length_ofNatLE, Bytes.length_ofNatLE])
  obtain ⟨h, hcode⟩ := List.append_inj h (by
    simp only [List.length_append, Bytes.length_ofNatLE, length_committedPrevouts,
      length_committedSequences, TxInput.length_outPointBytes])
  obtain ⟨h, hpoint⟩ :=
    List.append_inj' h (by rw [TxInput.length_outPointBytes, TxInput.length_outPointBytes])
  obtain ⟨h, hsequences⟩ :=
    List.append_inj' h (by rw [length_committedSequences, length_committedSequences])
  obtain ⟨hversion, hprevouts⟩ :=
    List.append_inj' h (by rw [length_committedPrevouts, length_committedPrevouts])
  refine ⟨⟨?_, ?_, varBytes_inj hcode, ?_, ?_, ?_, ?_⟩, hprevouts, hsequences, houtputs⟩
  · exact (Reads.uint32 type).inj (Reads.uint32 type') htype
  · exact (Reads.uint64 value).inj (Reads.uint64 value') hvalue
  · exact (Reads.uint32 s.version).inj (Reads.uint32 t.version) hversion
  · exact (Reads.uint32 s.lockTime).inj (Reads.uint32 t.lockTime) hlockTime
  · exact i.reads_outPoint.inj j.reads_outPoint hpoint
  · exact (Reads.uint32 i.sequence).inj (Reads.uint32 j.sequence) hsequence

/-! ## The rows behind the hashes -/

/-- A type that leaves out nothing commits to the hashes of the three rows. -/
theorem committed_eq_hashes (t : Tx) (index : Nat) {type : UInt32}
    (hanyone : HashType.isAnyoneCanPay type = false) (hall : commitsToAll type = true) :
    t.committedPrevouts type = t.prevoutsHash ∧ t.committedSequences type = t.sequencesHash ∧
      t.committedOutputs index type = outputsHash t.outputs := by
  simp only [committedPrevouts, committedSequences, committedOutputs, hanyone, hall,
    Bool.false_eq_true, Bool.not_false, Bool.and_self, if_true, if_false, and_self]

/-- In one of the three rows the strings that are hashed are different and have the same hash. -/
def RowsCollide (s t : Tx) : Prop :=
  Digest.Collide (s.inputs.flatMap TxInput.outPointBytes)
      (t.inputs.flatMap TxInput.outPointBytes) ∨
    Digest.Collide (s.inputs.flatMap fun i => Bytes.ofNatLE 4 i.sequence.toNat)
      (t.inputs.flatMap fun i => Bytes.ofNatLE 4 i.sequence.toNat) ∨
    Digest.Collide (s.outputs.flatMap TxOutput.encode) (t.outputs.flatMap TxOutput.encode)

/-- **Rows with equal hashes are equal, or two of the strings that were hashed collide.** -/
theorem rows_eq_or_collide {s t : Tx} (hs : ∀ o ∈ s.outputs, o.locking.size < UInt64.size)
    (ht : ∀ o ∈ t.outputs, o.locking.size < UInt64.size)
    (hprevouts : s.prevoutsHash = t.prevoutsHash) (hsequences : s.sequencesHash = t.sequencesHash)
    (houtputs : outputsHash s.outputs = outputsHash t.outputs) :
    (s.inputs.map TxInput.outPoint = t.inputs.map TxInput.outPoint ∧
      s.inputs.map TxInput.sequence = t.inputs.map TxInput.sequence ∧
      s.outputs.map TxOutput.payment = t.outputs.map TxOutput.payment) ∨
    RowsCollide s t := by
  obtain hpoints | hcollide := Digest.eq_or_collide hprevouts
  · obtain hnumbers | hcollide := Digest.eq_or_collide hsequences
    · obtain hpayments | hcollide := Digest.eq_or_collide houtputs
      · exact .inl ⟨TxInput.outPoints_eq hpoints, TxInput.sequences_eq hnumbers,
          TxOutput.payments_eq hs ht hpayments⟩
      · exact .inr (.inr (.inr hcollide))
    · exact .inr (.inr (.inl hcollide))
  · exact .inr (.inl hcollide)

/-- **What a signature binds.** Two calls that sign the same bytes have the same type, value, code,
version and lock time, and sign inputs that spend the same output under the same sequence number.
When the type moreover leaves out nothing, and the lengths of the locking scripts are numbers of 64
bits, the transactions spend the same outputs, have the same sequence numbers and pay the same
values to the same scripts, in the same order, or else the strings that the two calls have hashed in
one of the three places are different and have the same hash. -/
theorem preimage_binding {s t : Tx} {index index' : Nat} {code code' content : Bytes}
    {type type' : UInt32} {value value' : UInt64}
    (hs : s.preimage index code type value = .ok content)
    (ht : t.preimage index' code' type' value' = .ok content) :
    (type = type' ∧ value = value' ∧ code = code' ∧ s.version = t.version ∧
      s.lockTime = t.lockTime ∧
      ∃ i j, s.inputs[index]? = some i ∧ t.inputs[index']? = some j ∧
        i.prevHash = j.prevHash ∧ i.prevIndex = j.prevIndex ∧ i.sequence = j.sequence) ∧
    (HashType.base type ≠ HashType.none → HashType.base type ≠ HashType.single →
      HashType.isAnyoneCanPay type = false →
      (∀ o ∈ s.outputs, o.locking.size < UInt64.size) →
      (∀ o ∈ t.outputs, o.locking.size < UInt64.size) →
      (s.inputs.map TxInput.outPoint = t.inputs.map TxInput.outPoint ∧
        s.inputs.map TxInput.sequence = t.inputs.map TxInput.sequence ∧
        s.outputs.map TxOutput.payment = t.outputs.map TxOutput.payment) ∨
      RowsCollide s t) := by
  obtain ⟨i, hi, hsbytes⟩ := preimage_eq_ok hs
  obtain ⟨j, hj, htbytes⟩ := preimage_eq_ok ht
  obtain ⟨⟨rfl, hvalue, hcode, hversion, hlockTime, hpoint, hsequence⟩, hprevouts, hsequences,
    houtputs⟩ := layout_inj (hsbytes.trans htbytes.symm)
  refine ⟨⟨rfl, hvalue, hcode, hversion, hlockTime, i, j, hi, hj, ?_, ?_, hsequence⟩, ?_⟩
  · exact congrArg OutPoint.hash hpoint
  · exact congrArg OutPoint.index hpoint
  intro hnone hsingle hanyone hsfit htfit
  have hall := commitsToAll_eq_true_iff.mpr ⟨hnone, hsingle⟩
  obtain ⟨hsp, hss, hso⟩ := s.committed_eq_hashes index hanyone hall
  obtain ⟨htp, hts, hto⟩ := t.committed_eq_hashes index' hanyone hall
  rw [hsp, htp] at hprevouts
  rw [hss, hts] at hsequences
  rw [hso, hto] at houtputs
  exact rows_eq_or_collide hsfit htfit hprevouts hsequences houtputs

/-- The pair of payments with another script at the first input. -/
def sampleResigned : Tx :=
  samplePair.changed [.unlocking 0 ⟨[1, 0xaa]⟩]

theorem preimage_binding_resigned :
    ∃ content, samplePair.preimage 1 [Opcode.op1] HashType.allForkId 6 = .ok content ∧
      sampleResigned.preimage 1 [Opcode.op1] HashType.allForkId 6 = .ok content ∧
      (∃ i j, samplePair.inputs[1]? = some i ∧ sampleResigned.inputs[1]? = some j ∧
        i.prevHash = j.prevHash ∧ i.prevIndex = j.prevIndex ∧ i.sequence = j.sequence) ∧
      ((samplePair.inputs.map TxInput.outPoint = sampleResigned.inputs.map TxInput.outPoint ∧
        samplePair.inputs.map TxInput.sequence = sampleResigned.inputs.map TxInput.sequence ∧
        samplePair.outputs.map TxOutput.payment = sampleResigned.outputs.map TxOutput.payment) ∨
      RowsCollide samplePair sampleResigned) := by
  obtain ⟨content, hfirst⟩ : ∃ content,
      samplePair.preimage 1 [Opcode.op1] HashType.allForkId 6 = .ok content := ⟨_, rfl⟩
  have hsame : SameCommitment 1 HashType.allForkId sampleResigned samplePair :=
    (SameSpend.unlocking samplePair 0 ⟨[1, 0xaa]⟩).sameCommitment (.refl _ _ _)
  have hsecond : sampleResigned.preimage 1 [Opcode.op1] HashType.allForkId 6 = .ok content :=
    (hsame.preimage_eq [Opcode.op1] 6).trans hfirst
  obtain ⟨⟨-, -, -, -, -, hsigned⟩, hrows⟩ := preimage_binding hfirst hsecond
  exact ⟨content, hfirst, hsecond, hsigned,
    hrows (by decide) (by decide) (by decide) (by decide) (by decide)⟩

end Tx

end CashWallet
