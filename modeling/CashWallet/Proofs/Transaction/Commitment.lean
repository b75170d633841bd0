import CashWallet.Proofs.Transaction.Name
import CashWallet.Transaction.Preimage

/-!
# `CashWallet/Proofs/Transaction/Commitment.lean` — what signatures do not see

A signature commits to the parts of a transaction that its type chooses, and to nothing else.
`Tx.SameCommitment index type s t` says that two transactions agree on those parts: always on the
version, the lock time and the input that is signed, and on the outputs spent, the sequence numbers
and the outputs paid as far as the type goes. **Signatures do not see any other difference**
(`Tx.SameCommitment.signatureHash_eq`): not unlocking scripts, not what is read off scripts, not the
label or the name.

Two transactions that spend and pay the same (`Tx.SameSpend`) agree on every part for every type.
New unlocking scripts keep it so, which is what makes it possible to sign the inputs one after the
other, and to sign under one label and check under another.

Failures are part of what is compared. An input that is missing has nothing to sign, and the failure
names the number of inputs, which is why two transactions without the input have to agree on that
number. An output that is missing for the type that chooses one is no failure: zeros are signed in
its place, so there the two have to agree on its being missing.
-/

set_option autoImplicit false

namespace CashWallet

/-- What an input spends, and under which sequence number. -/
def TxInput.spend (i : TxInput) : OutPoint × UInt32 :=
  (i.outPoint, i.sequence)

/-- What an output pays, and to which script. -/
def TxOutput.payment (o : TxOutput) : UInt64 × Script :=
  (o.value, o.locking)

namespace Tx

/-! ## What is put together from the inputs and the outputs -/

/-- What is written of every input or output is written alike when it depends on what it spends or
pays alone. -/
theorem flatMap_congr {α β : Type} {part : α → β} (enc : α → Bytes) (write : β → Bytes)
    (henc : ∀ a, enc a = write (part a)) {as bs : List α} (h : as.map part = bs.map part) :
    as.flatMap enc = bs.flatMap enc := by
  have hmap : ∀ cs : List α, cs.flatMap enc = (cs.map part).flatMap write := by
    intro cs
    rw [List.flatMap_map, funext henc]
  rw [hmap, hmap, h]

theorem outPointBytes_eq {i j : TxInput} (h : i.spend = j.spend) :
    i.outPointBytes = j.outPointBytes := by
  have hpoint : i.outPoint = j.outPoint := congrArg Prod.fst h
  have hhash : i.prevHash = j.prevHash := congrArg OutPoint.hash hpoint
  have hindex : i.prevIndex = j.prevIndex := congrArg OutPoint.index hpoint
  rw [TxInput.outPointBytes, TxInput.outPointBytes, hhash, hindex]

theorem outputsHash_congr {as bs : List TxOutput}
    (h : as.map TxOutput.payment = bs.map TxOutput.payment) : outputsHash as = outputsHash bs := by
  have hbytes := flatMap_congr TxOutput.encode
    (fun p => Bytes.ofNatLE 8 p.1.toNat ++ varBytes p.2.bytes) (fun _ => rfl) h
  rw [outputsHash, outputsHash, hbytes]

theorem commitsToAll_eq_true_iff {type : UInt32} : commitsToAll type = true ↔
    HashType.base type ≠ HashType.none ∧ HashType.base type ≠ HashType.single := by
  rw [commitsToAll, Bool.and_eq_true, bne_iff_ne, bne_iff_ne, and_comm]

/-! ## The hash to sign -/

/-- At every input that is there something is signed. -/
theorem signatureHash_of_lt {t : Tx} {index : Nat} (h : index < t.inputs.length) (code : Bytes)
    (type : UInt32) (value : UInt64) :
    ∃ digest, t.signatureHash index code type value = .ok digest := by
  rw [signatureHash, preimage, List.getElem?_eq_getElem h]
  exact ⟨_, rfl⟩

theorem length_of_signatureHash {t : Tx} {index : Nat} {code digest : Bytes} {type : UInt32}
    {value : UInt64} (h : t.signatureHash index code type value = .ok digest) :
    digest.length = 32 := by
  rw [signatureHash] at h
  cases hcontent : t.preimage index code type value with
  | error e =>
    rw [hcontent] at h
    cases h
  | ok content =>
    rw [hcontent] at h
    cases h
    exact Digest.length_sha256d content

/-! ## Agreeing on what a type commits to -/

/-- The two transactions agree on all that a signature of the type commits to at the input with the
index. The number of inputs matters when that input is missing, for the failure names it. -/
structure SameCommitment (index : Nat) (type : UInt32) (s t : Tx) : Prop where
  version : s.version = t.version
  lockTime : s.lockTime = t.lockTime
  signed : s.inputs[index]?.map TxInput.spend = t.inputs[index]?.map TxInput.spend
  missing : s.inputs.length ≤ index → s.inputs.length = t.inputs.length
  outPoints : HashType.isAnyoneCanPay type = false →
    s.inputs.map TxInput.outPoint = t.inputs.map TxInput.outPoint
  sequences : HashType.isAnyoneCanPay type = false → HashType.base type ≠ HashType.none →
    HashType.base type ≠ HashType.single →
    s.inputs.map TxInput.sequence = t.inputs.map TxInput.sequence
  outputs : HashType.base type ≠ HashType.none → HashType.base type ≠ HashType.single →
    s.outputs.map TxOutput.payment = t.outputs.map TxOutput.payment
  opposite : HashType.base type = HashType.single →
    s.outputs[index]?.map TxOutput.payment = t.outputs[index]?.map TxOutput.payment

namespace SameCommitment

variable {index : Nat} {type : UInt32} {s t : Tx}

theorem committedPrevouts (h : SameCommitment index type s t) :
    s.committedPrevouts type = t.committedPrevouts type := by
  rw [Tx.committedPrevouts, Tx.committedPrevouts]
  cases hanyone : HashType.isAnyoneCanPay type with
  | true => rw [if_pos rfl, if_pos rfl]
  | false =>
    have hpoints := flatMap_congr TxInput.outPointBytes
      (fun p => p.hash.bytes ++ Bytes.ofNatLE 4 p.index.toNat) (fun _ => rfl) (h.outPoints hanyone)
    rw [prevoutsHash, prevoutsHash, hpoints]

theorem committedSequences (h : SameCommitment index type s t) :
    s.committedSequences type = t.committedSequences type := by
  rw [Tx.committedSequences, Tx.committedSequences]
  by_cases hseen : (!HashType.isAnyoneCanPay type && commitsToAll type) = true
  · rw [if_pos hseen, if_pos hseen]
    rw [Bool.and_eq_true, Bool.not_eq_true', commitsToAll_eq_true_iff] at hseen
    have hsequences := flatMap_congr (fun i : TxInput => Bytes.ofNatLE 4 i.sequence.toNat)
      (fun n => Bytes.ofNatLE 4 n.toNat) (fun _ => rfl)
      (h.sequences hseen.1 hseen.2.1 hseen.2.2)
    rw [sequencesHash, sequencesHash, hsequences]
  · rw [if_neg hseen, if_neg hseen]

/-- The same outputs are hashed for the type, or none for both. -/
theorem committedOutputs (h : SameCommitment index type s t) :
    s.committedOutputs index type = t.committedOutputs index type := by
  rw [Tx.committedOutputs, Tx.committedOutputs]
  by_cases hall : commitsToAll type = true
  · rw [if_pos hall, if_pos hall]
    rw [commitsToAll_eq_true_iff] at hall
    exact outputsHash_congr (h.outputs hall.1 hall.2)
  rw [if_neg hall, if_neg hall]
  by_cases hsingle : HashType.base type = HashType.single
  · rw [if_pos hsingle, if_pos hsingle]
    have hone := h.opposite hsingle
    -- One output is committed to only where both transactions have it.
    cases hs : s.outputs[index]? with
    | none =>
      rw [hs] at hone
      rw [Option.map_eq_none_iff.mp hone.symm]
    | some o =>
      rw [hs] at hone
      obtain ⟨p, hp, hpay⟩ := Option.map_eq_some_iff.mp hone.symm
      rw [hp]
      exact outputsHash_congr (congrArg (fun pay => [pay]) hpay.symm)
  · rw [if_neg hsingle, if_neg hsingle]

theorem preimage_eq (h : SameCommitment index type s t) (code : Bytes) (value : UInt64) :
    s.preimage index code type value = t.preimage index code type value := by
  have hone := h.signed
  rw [preimage, preimage]
  cases hs : s.inputs[index]? with
  | none =>
    rw [hs] at hone
    have hcount := h.missing (List.getElem?_eq_none_iff.mp hs)
    simp only [Option.map_eq_none_iff.mp hone.symm, hcount]
  | some i =>
    rw [hs] at hone
    obtain ⟨j, hj, hspend⟩ := Option.map_eq_some_iff.mp hone.symm
    have hsequence : j.sequence = i.sequence := congrArg Prod.snd hspend
    simp only [hj, h.committedPrevouts, h.committedSequences, h.committedOutputs, h.version,
      h.lockTime, outPointBytes_eq hspend, hsequence]

/-- **Signatures do not see the difference** between transactions that agree on what the type
commits to. -/
theorem signatureHash_eq (h : SameCommitment index type s t) (code : Bytes) (value : UInt64) :
    s.signatureHash index code type value = t.signatureHash index code type value := by
  rw [signatureHash, signatureHash, h.preimage_eq]

end SameCommitment

/-! ## Spending and paying the same -/

/-- The two transactions differ at most in what no signature sees. -/
structure SameSpend (s t : Tx) : Prop where
  version : s.version = t.version
  inputs : s.inputs.map TxInput.spend = t.inputs.map TxInput.spend
  outputs : s.outputs.map TxOutput.payment = t.outputs.map TxOutput.payment
  lockTime : s.lockTime = t.lockTime

namespace SameSpend

theorem refl (t : Tx) : SameSpend t t :=
  ⟨rfl, rfl, rfl, rfl⟩

theorem symm {s t : Tx} (h : SameSpend s t) : SameSpend t s :=
  ⟨h.version.symm, h.inputs.symm, h.outputs.symm, h.lockTime.symm⟩

theorem trans {s t u : Tx} (h : SameSpend s t) (h' : SameSpend t u) : SameSpend s u :=
  ⟨h.version.trans h'.version, h.inputs.trans h'.inputs, h.outputs.trans h'.outputs,
    h.lockTime.trans h'.lockTime⟩

theorem length_inputs {s t : Tx} (h : SameSpend s t) : s.inputs.length = t.inputs.length := by
  have hlen := congrArg List.length h.inputs
  rwa [List.length_map, List.length_map] at hlen

/-- What agrees with a transaction agrees with all that spend and pay the same. -/
theorem sameCommitment {r s t : Tx} {index : Nat} {type : UInt32} (h : SameSpend r s)
    (h' : SameCommitment index type s t) : SameCommitment index type r t := by
  -- What is spent is compared as pairs, and what a type commits to is one half of them or the
  -- other.
  have hpoints : r.inputs.map TxInput.outPoint = s.inputs.map TxInput.outPoint := by
    have hfirst := congrArg (List.map Prod.fst) h.inputs
    rw [List.map_map, List.map_map] at hfirst
    exact hfirst
  have hsequences : r.inputs.map TxInput.sequence = s.inputs.map TxInput.sequence := by
    have hsecond := congrArg (List.map Prod.snd) h.inputs
    rw [List.map_map, List.map_map] at hsecond
    exact hsecond
  have hsigned : r.inputs[index]?.map TxInput.spend = s.inputs[index]?.map TxInput.spend := by
    rw [← List.getElem?_map, ← List.getElem?_map, h.inputs]
  have hopposite : r.outputs[index]?.map TxOutput.payment =
      s.outputs[index]?.map TxOutput.payment := by
    rw [← List.getElem?_map, ← List.getElem?_map, h.outputs]
  exact {
    version := h.version.trans h'.version
    lockTime := h.lockTime.trans h'.lockTime
    signed := hsigned.trans h'.signed
    missing := fun hindex => by
      rw [h.length_inputs] at hindex ⊢
      exact h'.missing hindex
    outPoints := fun hanyone => hpoints.trans (h'.outPoints hanyone)
    sequences := fun hanyone hnone hsingle =>
      hsequences.trans (h'.sequences hanyone hnone hsingle)
    outputs := fun hnone hsingle => h.outputs.trans (h'.outputs hnone hsingle)
    opposite := fun hsingle => hopposite.trans (h'.opposite hsingle) }

/-! ## What changes nothing that is seen -/

theorem rebuilt {t : Tx} {inputs : List TxInput} {outputs : List TxOutput}
    (hins : inputs.map TxInput.spend = t.inputs.map TxInput.spend)
    (houts : outputs.map TxOutput.payment = t.outputs.map TxOutput.payment) :
    SameSpend (t.rebuilt inputs outputs) t :=
  ⟨rfl, hins, houts, rfl⟩

theorem setUnlocking? {t changed : Tx} {index : Nat} {script old : Script}
    (h : t.setUnlocking? index script = some (changed, old)) : SameSpend changed t := by
  rw [Tx.setUnlocking?] at h
  cases hi : t.inputs[index]? with
  | none =>
    rw [hi] at h
    cases h
  | some i =>
    rw [hi] at h
    cases h
    obtain ⟨hlt, rfl⟩ := List.getElem?_eq_some_iff.mp hi
    refine rebuilt ?_ rfl
    rw [List.map_set]
    have hsame := @List.set_getElem_self _ (t.inputs.map TxInput.spend) index
      (by rwa [List.length_map])
    rwa [List.getElem_map] at hsame

theorem unlocking (t : Tx) (index : Nat) (script : Script) :
    SameSpend ((Change.unlocking index script).apply t) t := by
  rw [Change.apply]
  cases hset : t.setUnlocking? index script with
  | none => exact .refl t
  | some pair => exact setUnlocking? hset

/-- **Any run of new unlocking scripts** leaves what is spent and paid. -/
theorem unlockings (scripts : List (Nat × Script)) :
    ∀ t : Tx, SameSpend (t.changed (scripts.map fun p => .unlocking p.1 p.2)) t := by
  induction scripts with
  | nil => exact fun t => .refl t
  | cons p scripts ih => exact fun t => (ih _).trans (unlocking t p.1 p.2)

end SameSpend

theorem SameCommitment.refl (index : Nat) (type : UInt32) (t : Tx) : SameCommitment index type t t :=
  ⟨rfl, rfl, rfl, fun _ => rfl, fun _ => rfl, fun _ _ _ => rfl, fun _ _ => rfl, fun _ => rfl⟩

theorem signatureHash_congr {s t : Tx} (h : SameSpend s t) (index : Nat) (code : Bytes)
    (type : UInt32) (value : UInt64) :
    s.signatureHash index code type value = t.signatureHash index code type value :=
  (h.sameCommitment (.refl index type t)).signatureHash_eq code value

/-- **What a type leaves out makes no difference to what is signed**, be it a hash or a failure. The
two transactions may differ in every unlocking script, the one may be given any run of new ones, and
they may have other labels, and so other addresses. When anyone can pay they may spend other outputs
and have other sequence numbers beside the input that is signed; when the type chooses no outputs
they may pay any outputs, and when it chooses one, any but the opposite one, and in both cases they
may have other sequence numbers beside that of the input. -/
theorem signatureHash_unlockings_eq {index : Nat} {type : UInt32} {s t : Tx}
    (h : SameCommitment index type s t) (scripts : List (Nat × Script)) (code : Bytes)
    (value : UInt64) :
    (s.changed (scripts.map fun p => .unlocking p.1 p.2)).signatureHash index code type value =
      t.signatureHash index code type value := by
  have hsame := SameSpend.unlockings scripts s
  exact (hsame.sameCommitment h).signatureHash_eq code value

/-- Two inputs and two outputs. -/
def samplePair : Tx :=
  build mainLabel 2 [.derive mainLabel .zero 0 .empty 1, .derive mainLabel .zero 1 .empty 7]
    [.derive mainLabel 5 .empty, .derive mainLabel 6 ⟨[Opcode.op1]⟩] 0

/-- It spends the same outputs and pays the same second output, and differs in all else that a
signature of the second input for one output leaves out. -/
def sampleVariant : Tx :=
  build "bchtest" 2
    [.derive "bchtest" .zero 0 ⟨[Opcode.op1]⟩ 3, .derive "bchtest" .zero 1 ⟨[1, 0xaa]⟩ 7]
    [.derive "bchtest" 50 ⟨[Opcode.opReturn]⟩, .derive "bchtest" 6 ⟨[Opcode.op1]⟩,
      .derive "bchtest" 8 .empty] 0

theorem signatureHash_unlockings_eq_single :
    SameCommitment 1 (HashType.single ||| HashType.forkId) samplePair sampleVariant ∧
      (samplePair.changed ([(0, ⟨[Opcode.op16]⟩), (9, .empty)].map
        fun p => .unlocking p.1 p.2)).signatureHash 1 [Opcode.op1]
          (HashType.single ||| HashType.forkId) 6 =
        sampleVariant.signatureHash 1 [Opcode.op1] (HashType.single ||| HashType.forkId) 6 := by
  have hbase : HashType.base (HashType.single ||| HashType.forkId) = HashType.single := by decide
  have hsame : SameCommitment 1 (HashType.single ||| HashType.forkId) samplePair sampleVariant := {
    version := rfl
    lockTime := rfl
    signed := rfl
    missing := fun _ => rfl
    outPoints := fun _ => rfl
    sequences := fun _ _ hsingle => absurd hbase hsingle
    outputs := fun _ hsingle => absurd hbase hsingle
    opposite := fun _ => rfl }
  exact ⟨hsame, signatureHash_unlockings_eq hsame _ _ _⟩

end Tx

end CashWallet
