import CashWallet.Proofs.Transaction.Commitment

/-!
# `CashWallet/Proofs/Transaction/Estimate.lean` — how far the size for a fee can be trusted

Before a transaction is signed its size is estimated, so that a fee can be chosen. The estimate
gives every input more than it needs, 88 bytes beyond a script of 107, which is the longest that
pushes a signature and a compressed key; but it takes **every count and every length of a locking
script to be written in two bytes**, and they take one, three, five or nine.

So the estimate is a bound exactly as long as what the inputs have to spare pays for the longer
counts (`Tx.estimateHolds_iff`). Locking scripts of less than 253 bytes never use it up; three that
are longer do in a transaction without inputs, and 91 in a transaction with one.

Size and estimate are both sums along the inputs and the outputs. They are brought to one form, in
which the lengths of the scripts, and of the numbers in front of them, are added up by themselves
(`Script.total`), so that what the two have in common cancels and the condition is what is left. In
one direction any scripts are bounded by the longest; in the other the longest are the ones to look
at (`Tx.longestScripts`).
-/

set_option autoImplicit false

namespace CashWallet

/-! ## Lengths added up -/

namespace Script

/-- What is measured of some scripts, added up. -/
def total (measure : Script → Nat) (scripts : List Script) : Nat :=
  scripts.foldr (fun s n => measure s + n) 0

variable {measure : Script → Nat}

theorem total_cons (s : Script) (scripts : List Script) :
    total measure (s :: scripts) = measure s + total measure scripts :=
  rfl

theorem total_append (front back : List Script) :
    total measure (front ++ back) = total measure front + total measure back := by
  induction front with
  | nil => exact (Nat.zero_add _).symm
  | cons s front ih => rw [List.cons_append, total_cons, total_cons, ih, Nat.add_assoc]

theorem total_le_mul {bound : Nat} {scripts : List Script} (h : ∀ s ∈ scripts, measure s ≤ bound) :
    total measure scripts ≤ bound * scripts.length := by
  induction scripts with
  | nil => exact Nat.le_refl 0
  | cons s scripts ih =>
    rw [List.forall_mem_cons] at h
    rw [total_cons, List.length_cons, Nat.mul_succ, Nat.add_comm]
    exact Nat.add_le_add (ih h.2) h.1

theorem total_eq_mul {each : Nat} {scripts : List Script} (h : ∀ s ∈ scripts, measure s = each) :
    total measure scripts = each * scripts.length := by
  induction scripts with
  | nil => rfl
  | cons s scripts ih =>
    rw [List.forall_mem_cons] at h
    rw [total_cons, h.1, ih h.2, List.length_cons, Nat.mul_succ, Nat.add_comm]

/-- How many bytes the length of a script is written in. -/
def lengthWidth (s : Script) : Nat :=
  VarInt.countWidth s.size

end Script

namespace VarInt

theorem countWidth_of_lt {n : Nat} (h : n < 0xfd) : countWidth n = 1 := by
  have hn : (UInt64.ofNat n).toNat = n := UInt64.toNat_ofNat_of_lt' (Nat.lt_trans h (by decide))
  rw [countWidth, width, hn, if_pos h]

theorem countWidth_le (n : Nat) : countWidth n ≤ 9 := by
  rw [countWidth, width]
  split
  · decide
  split
  · decide
  split
  · decide
  · exact Nat.le_refl 9

end VarInt

namespace Tx

/-! ## New unlocking scripts -/

/-- The transaction with the given unlocking scripts, one for each input in order. -/
def unlocked (t : Tx) (scripts : List Script) : Tx :=
  t.changed (scripts.zipIdx.map fun p => .unlocking p.2 p.1)

/-- **One new unlocking script** takes the place of the one that was there, and of no other. -/
theorem unlockings_apply (t : Tx) (index : Nat) (script : Script) :
    ((Change.unlocking index script).apply t).inputs.map (·.unlocking) =
      (t.inputs.map (·.unlocking)).set index script := by
  rw [Change.apply, setUnlocking?]
  cases hi : t.inputs[index]? with
  | none =>
    rw [List.set_eq_of_length_le]
    rw [List.length_map]
    exact List.getElem?_eq_none_iff.mp hi
  | some i => exact List.map_set

/-- **A run of them** that goes on behind some scripts that stay. -/
theorem unlockings_changed (scripts : List Script) :
    ∀ {t : Tx} {front back : List Script}, t.inputs.map (·.unlocking) = front ++ back →
      back.length = scripts.length →
      (t.changed ((scripts.zipIdx front.length).map fun p => .unlocking p.2 p.1)).inputs.map
        (·.unlocking) = front ++ scripts := by
  induction scripts with
  | nil =>
    intro t front back h hlen
    rwa [List.eq_nil_of_length_eq_zero hlen] at h
  | cons script scripts ih =>
    intro t front back h hlen
    cases back with
    | nil => cases hlen
    | cons old back =>
      have hset := t.unlockings_apply front.length script
      rw [h, List.set_append_right _ _ (Nat.le_refl _), Nat.sub_self, List.set_cons_zero,
        ← List.singleton_append, ← List.append_assoc] at hset
      have hrest := ih hset (Nat.succ.inj hlen)
      rwa [List.length_append, List.append_assoc] at hrest

theorem unlockings_unlocked {t : Tx} {scripts : List Script}
    (hlen : scripts.length = t.inputs.length) :
    (t.unlocked scripts).inputs.map (·.unlocking) = scripts := by
  refine @unlockings_changed scripts t [] (t.inputs.map (·.unlocking)) rfl ?_
  rw [List.length_map, hlen]

theorem sameSpend_unlocked (t : Tx) (scripts : List Script) : SameSpend (t.unlocked scripts) t := by
  have hrun := SameSpend.unlockings (scripts.zipIdx.map Prod.swap) t
  rwa [List.map_map] at hrun

/-! ## Sizes and estimates -/

/-- The length of the longest script that pushes a signature and a compressed key. -/
def longestUnlocking : Nat := 107

/-- The locking scripts of a transaction. -/
def lockings (t : Tx) : List Script :=
  t.outputs.map (·.locking)

theorem length_lockings (t : Tx) : t.lockings.length = t.outputs.length :=
  List.length_map _

theorem lockings_pushOutput (t : Tx) (o : TxOutput) :
    (t.pushOutput o).lockings = t.lockings ++ [o.locking] :=
  List.map_append

theorem SameSpend.lockings {s t : Tx} (h : SameSpend s t) : s.lockings = t.lockings := by
  have hsecond := congrArg (List.map Prod.snd) h.outputs
  rwa [List.map_map, List.map_map] at hsecond

theorem SameSpend.length_outputs {s t : Tx} (h : SameSpend s t) :
    s.outputs.length = t.outputs.length := by
  rw [← length_lockings, h.lockings, length_lockings]

/-- The length of an unlocking script that is not too long is written in one byte. -/
theorem inputSizes_eq {is : List TxInput} (h : ∀ i ∈ is, i.unlocking.size ≤ longestUnlocking) :
    is.foldr (fun i n => i.size + n) 0 =
      41 * is.length + Script.total Script.size (is.map (·.unlocking)) := by
  induction is with
  | nil => rfl
  | cons i is ih =>
    rw [List.forall_mem_cons] at h
    have hwidth : VarInt.countWidth i.unlocking.size = 1 :=
      VarInt.countWidth_of_lt (Nat.lt_of_le_of_lt h.1 (by decide))
    rw [List.foldr_cons, ih h.2, TxInput.size, hwidth, List.map_cons, Script.total_cons,
      List.length_cons]
    omega

theorem outputSizes_eq (os : List TxOutput) :
    os.foldr (fun o n => o.size + n) 0 =
      8 * os.length + Script.total Script.lengthWidth (os.map (·.locking)) +
        Script.total Script.size (os.map (·.locking)) := by
  induction os with
  | nil => rfl
  | cons o os ih =>
    rw [List.foldr_cons, ih, TxOutput.size, List.map_cons, Script.total_cons, Script.total_cons,
      List.length_cons, Script.lengthWidth]
    omega

theorem outputEstimates_eq (os : List TxOutput) :
    os.foldr (fun o n => 8 + 2 + o.locking.size + n) 0 =
      10 * os.length + Script.total Script.size (os.map (·.locking)) := by
  induction os with
  | nil => rfl
  | cons o os ih =>
    rw [List.foldr_cons, ih, List.map_cons, Script.total_cons, List.length_cons]
    omega

/-- The size of a transaction of which no unlocking script is longer than the longest. -/
theorem size_eq {t : Tx} (h : ∀ i ∈ t.inputs, i.unlocking.size ≤ longestUnlocking) :
    t.size = 8 + VarInt.countWidth t.inputs.length + VarInt.countWidth t.outputs.length +
      41 * t.inputs.length + Script.total Script.size (t.inputs.map (·.unlocking)) +
      8 * t.outputs.length + Script.total Script.lengthWidth t.lockings +
      Script.total Script.size t.lockings := by
  rw [size, inputSizes_eq h, outputSizes_eq, lockings]
  omega

/-- The estimate in terms of numbers and of the locking scripts. -/
theorem estimatedSignedSize_eq (t : Tx) (includeChange : Bool) :
    t.estimatedSignedSize includeChange =
      12 + 236 * t.inputs.length + 10 * t.outputs.length + Script.total Script.size t.lockings +
        if includeChange then 42 else 0 := by
  have hchange : changeAllowance = 42 := rfl
  rw [estimatedSignedSize, outputEstimates_eq, scriptAllowance, hchange, lockings]
  omega

/-! ## When the estimate is a bound -/

/-- Whatever scripts of at most the greatest length unlock the inputs, the transaction is not larger
than the estimate. -/
def EstimateHolds (t : Tx) : Prop :=
  ∀ scripts : List Script, scripts.length = t.inputs.length →
    (∀ s ∈ scripts, s.size ≤ longestUnlocking) →
      (t.unlocked scripts).size ≤ t.estimatedSignedSize false

/-- The same with one more output, which pays change to the hash of a key. -/
def EstimateHoldsWithChange (t : Tx) : Prop :=
  ∀ (scripts : List Script) (change : TxOutput) (h : Hash160), scripts.length = t.inputs.length →
    (∀ s ∈ scripts, s.size ≤ longestUnlocking) → change.locking = .lockToKeyHash h →
      ((t.unlocked scripts).pushOutput change).size ≤ t.estimatedSignedSize true

theorem unlocking_le_of_unlocked {t : Tx} {scripts : List Script}
    (hlen : scripts.length = t.inputs.length) (h : ∀ s ∈ scripts, s.size ≤ longestUnlocking) :
    ∀ i ∈ (t.unlocked scripts).inputs, i.unlocking.size ≤ longestUnlocking := by
  intro i hi
  have hmem : i.unlocking ∈ (t.unlocked scripts).inputs.map (·.unlocking) := List.mem_map_of_mem hi
  rw [unlockings_unlocked hlen] at hmem
  exact h _ hmem

/-- The size with new unlocking scripts, in terms of the scripts and of what was there before. -/
theorem size_unlocked {t : Tx} {scripts : List Script} (hlen : scripts.length = t.inputs.length)
    (h : ∀ s ∈ scripts, s.size ≤ longestUnlocking) :
    (t.unlocked scripts).size = 8 + VarInt.countWidth t.inputs.length +
      VarInt.countWidth t.outputs.length + 41 * t.inputs.length +
      Script.total Script.size scripts + 8 * t.outputs.length +
      Script.total Script.lengthWidth t.lockings + Script.total Script.size t.lockings := by
  have hsame := t.sameSpend_unlocked scripts
  rw [size_eq (unlocking_le_of_unlocked hlen h), unlockings_unlocked hlen, hsame.lockings,
    hsame.length_inputs, hsame.length_outputs]

theorem size_unlocked_pushOutput {t : Tx} {scripts : List Script} {change : TxOutput} {h : Hash160}
    (hlen : scripts.length = t.inputs.length) (hshort : ∀ s ∈ scripts, s.size ≤ longestUnlocking)
    (hchange : change.locking = .lockToKeyHash h) :
    ((t.unlocked scripts).pushOutput change).size = 8 + VarInt.countWidth t.inputs.length +
      VarInt.countWidth (t.outputs.length + 1) + 41 * t.inputs.length +
      Script.total Script.size scripts + 8 * t.outputs.length + 34 +
      Script.total Script.lengthWidth t.lockings + Script.total Script.size t.lockings := by
  have hsame := t.sameSpend_unlocked scripts
  have hsize : change.locking.size = 25 := by
    rw [hchange]
    simp only [Script.size, Script.lockToKeyHash, List.length_append, h.length_bytes,
      List.length_cons, List.length_nil]
  have hwidth : change.locking.lengthWidth = 1 := by
    rw [Script.lengthWidth, hsize]
    rfl
  have hlast (measure : Script → Nat) : Script.total measure [change.locking] =
      measure change.locking := Nat.add_zero _
  have hcount : ((t.unlocked scripts).pushOutput change).outputs.length =
      t.outputs.length + 1 := by
    rw [← hsame.length_outputs]
    exact List.length_append
  -- An output more changes nothing about the inputs.
  have hinputs : ((t.unlocked scripts).pushOutput change).inputs = (t.unlocked scripts).inputs := rfl
  rw [size_eq (hinputs ▸ unlocking_le_of_unlocked hlen hshort), lockings_pushOutput, hcount, hinputs,
    unlockings_unlocked hlen, hsame.lockings, hsame.length_inputs, Script.total_append,
    Script.total_append, hlast, hlast, hwidth, hsize]
  omega

/-- For every input a script of the greatest length. -/
def longestScripts (t : Tx) : List Script :=
  List.replicate t.inputs.length ⟨List.replicate longestUnlocking 0⟩

theorem size_of_mem_longestScripts {t : Tx} {s : Script} (hs : s ∈ t.longestScripts) :
    s.size = longestUnlocking := by
  rw [List.eq_of_mem_replicate hs]
  exact List.length_replicate

theorem longestScripts_le (t : Tx) : ∀ s ∈ t.longestScripts, s.size ≤ longestUnlocking :=
  fun _ hs => Nat.le_of_eq (size_of_mem_longestScripts hs)

theorem length_longestScripts (t : Tx) : t.longestScripts.length = t.inputs.length :=
  List.length_replicate

theorem total_longestScripts (t : Tx) :
    Script.total Script.size t.longestScripts = longestUnlocking * t.inputs.length := by
  rw [Script.total_eq_mul fun s hs => size_of_mem_longestScripts hs, length_longestScripts]

/-- The estimate holds when the counts are no longer than the inputs can pay for; the scripts that
show it are the longest. -/
theorem estimateHolds_iff (t : Tx) :
    t.EstimateHolds ↔
      VarInt.countWidth t.inputs.length + VarInt.countWidth t.outputs.length +
        Script.total Script.lengthWidth t.lockings ≤
          88 * t.inputs.length + 2 * t.outputs.length + 4 := by
  have hestimate : t.estimatedSignedSize false = 12 + 236 * t.inputs.length +
      10 * t.outputs.length + Script.total Script.size t.lockings := t.estimatedSignedSize_eq false
  constructor
  · intro h
    have hlongest := h t.longestScripts t.length_longestScripts t.longestScripts_le
    rw [size_unlocked t.length_longestScripts t.longestScripts_le, total_longestScripts, hestimate,
      longestUnlocking] at hlongest
    omega
  · intro h scripts hlen hshort
    have htotal := Script.total_le_mul hshort
    rw [size_unlocked hlen hshort, hestimate]
    rw [hlen, longestUnlocking] at htotal
    omega

/-- The same with change: one output more, and 42 bytes for it. -/
theorem estimateHoldsWithChange_iff (t : Tx) :
    t.EstimateHoldsWithChange ↔
      VarInt.countWidth t.inputs.length + VarInt.countWidth (t.outputs.length + 1) +
        Script.total Script.lengthWidth t.lockings ≤
          88 * t.inputs.length + 2 * t.outputs.length + 12 := by
  have hestimate : t.estimatedSignedSize true = 12 + 236 * t.inputs.length +
      10 * t.outputs.length + Script.total Script.size t.lockings + 42 :=
    t.estimatedSignedSize_eq true
  constructor
  · intro h
    have hlongest := h t.longestScripts (.derive t.label 0 (.lockToKeyHash (.ofContent [])))
      (.ofContent []) t.length_longestScripts t.longestScripts_le rfl
    rw [size_unlocked_pushOutput t.length_longestScripts t.longestScripts_le rfl,
      total_longestScripts, hestimate, longestUnlocking] at hlongest
    omega
  · intro h scripts change hash hlen hshort hchange
    have htotal := Script.total_le_mul hshort
    rw [size_unlocked_pushOutput hlen hshort hchange, hestimate]
    rw [hlen, longestUnlocking] at htotal
    omega

/-- **How far the estimate is a bound.** Let a transaction get a new unlocking script of at most 107
bytes at every input. It is never larger than the estimate exactly when the bytes that its counts
and the lengths of its locking scripts are written in are at most four, two for each output, and 88
for each input; and with one more output to the hash of a key it is never larger than the estimate
with change exactly when they are at most eight more. Both are so when every locking script has less
than 253 bytes. -/
theorem estimate_bounds (t : Tx) :
    (t.EstimateHolds ↔
      VarInt.countWidth t.inputs.length + VarInt.countWidth t.outputs.length +
        Script.total Script.lengthWidth t.lockings ≤
          88 * t.inputs.length + 2 * t.outputs.length + 4) ∧
    (t.EstimateHoldsWithChange ↔
      VarInt.countWidth t.inputs.length + VarInt.countWidth (t.outputs.length + 1) +
        Script.total Script.lengthWidth t.lockings ≤
          88 * t.inputs.length + 2 * t.outputs.length + 12) ∧
    ((∀ o ∈ t.outputs, o.locking.size < 0xfd) → t.EstimateHolds ∧ t.EstimateHoldsWithChange) := by
  refine ⟨t.estimateHolds_iff, t.estimateHoldsWithChange_iff, fun hsmall => ?_⟩
  have hlengths : Script.total Script.lengthWidth t.lockings = t.outputs.length := by
    have hone : ∀ s ∈ t.lockings, s.lengthWidth = 1 := by
      intro s hs
      obtain ⟨o, ho, rfl⟩ := List.mem_map.mp hs
      exact VarInt.countWidth_of_lt (hsmall o ho)
    rw [Script.total_eq_mul hone, length_lockings, Nat.one_mul]
  have hinputs := VarInt.countWidth_le t.inputs.length
  have houtputs := VarInt.countWidth_le t.outputs.length
  have hnone : t.inputs.length = 0 → VarInt.countWidth t.inputs.length = 1 := by
    intro h
    rw [h]
    rfl
  have hfew : t.outputs.length < 0xfd → VarInt.countWidth t.outputs.length = 1 :=
    VarInt.countWidth_of_lt
  have hmore := VarInt.countWidth_le (t.outputs.length + 1)
  rw [estimateHolds_iff, estimateHoldsWithChange_iff, hlengths]
  omega

/-- So many inputs, and so many outputs with locking scripts of so many bytes. -/
def sampleWide (inputs outputs width : Nat) : Tx :=
  build mainLabel 1 (List.replicate inputs (.unsigned .zero 0))
    (List.replicate outputs (.derive mainLabel 0 ⟨List.replicate width Opcode.op1⟩)) 0

/-- Two outputs with locking scripts of 253 bytes are estimated well without any input, and three
are not; one input is enough for 90 of them and not for 91. With one byte less they always are. -/
theorem estimate_bounds_sampleWide :
    (sampleWide 0 2 253).EstimateHolds ∧ ¬ (sampleWide 0 3 253).EstimateHolds ∧
      (sampleWide 1 90 253).EstimateHolds ∧ ¬ (sampleWide 1 91 253).EstimateHolds ∧
      ¬ (sampleWide 1 99 253).EstimateHoldsWithChange ∧
      (sampleWide 0 99 252).EstimateHoldsWithChange := by
  refine ⟨(estimate_bounds _).1.mpr ?_, (estimate_bounds _).1.not.mpr ?_,
    (estimate_bounds _).1.mpr ?_, (estimate_bounds _).1.not.mpr ?_,
    (estimate_bounds _).2.1.not.mpr ?_, ((estimate_bounds _).2.2 fun o ho => ?_).2⟩
  · decide +kernel
  · decide +kernel
  · decide +kernel
  · decide +kernel
  · decide +kernel
  · have hsize : (⟨List.replicate 252 Opcode.op1⟩ : Script).size = 252 := List.length_replicate
    rw [List.eq_of_mem_replicate ho]
    show (⟨List.replicate 252 Opcode.op1⟩ : Script).size < 0xfd
    rw [hsize]
    decide

end Tx

end CashWallet
