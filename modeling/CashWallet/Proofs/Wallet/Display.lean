import CashWallet.Proofs.Wallet.Record
import CashWallet.Proofs.Wallet.Totals

/-!
# `CashWallet/Proofs/Wallet/Display.lean` — the record of a transaction that travels

A transaction that was received is shown as a record, of which another transaction can be made. What
is shown is written in other forms than what travels: hashes turned around, scripts as digits, and
numbers without a sign as numbers with one. **Every one of these forms gives the number, the script
or the hash back**, so that the transaction of the record has the bytes of the one it shows,
whatever the label (`TxRecord.ofTx_lossless`).

The one thing that a record cannot hold is an amount of 2⁶³ or more. There is no record exactly when
the outputs together reach it; an output that does so alone is only a case of that, since the sum is
at least as large as each of them.

A version keeps its bits, though it may be shown as a negative number; only amounts have to keep
their value. So a record can be written down at once (`TxRecord.shown`), given the amount that the
outputs come to, and a transaction is shown as that record or not at all
(`TxRecord.ofTx_eq_ok_iff`).
-/

set_option autoImplicit false

namespace CashWallet

/-- An amount that fits a number with a sign is the same number. -/
theorem toInt_toInt64 {v : UInt64} (h : (v.toNat : Int) ≤ Int64.maxValue.toInt) :
    v.toInt64.toInt = v.toNat := by
  have hgreatest : Int64.maxValue.toInt = 9223372036854775807 := rfl
  have hlt : 2 * v.toBitVec.toNat < 2 ^ 64 := by
    rw [UInt64.toNat_toBitVec]
    omega
  exact BitVec.toInt_eq_toNat_of_lt hlt

/-- A number with a sign that is a natural number is the same number without. -/
theorem toNat_toUInt64 {v : Int64} {n : Nat} (h : v.toInt = n) : v.toUInt64.toNat = n := by
  have hnonneg : (0 : Int64) ≤ v := by
    rw [Int64.le_iff_toInt_le, h]
    exact Int.natCast_nonneg n
  rw [Int64.toNat_toUInt64_of_le hnonneg, Int64.toNatClampNeg, h, Int.toNat_natCast]

/-! ## Inputs and outputs -/

/-- The record of an input describes the input, under the address that the label gives it. -/
theorem InputRecord.toInput_ofInput (label : String) (i : TxInput) :
    (ofInput i).toInput label = .ok (.derive label i.prevHash i.prevIndex i.unlocking i.sequence) :=
  toInput_eq_ok_iff.mpr ⟨i.unlocking, i.prevHash, Script.parse_encode i.unlocking.bytes,
    i.prevHash.parse_display, rfl⟩

namespace OutputRecord

/-- The record of an output whose value fits. -/
def shown (o : TxOutput) : OutputRecord where
  value := o.value.toInt64
  spent := false
  pkScript := o.locking.toHex
  address := (o.address.map CashAddress.encode).getD ""

theorem toInt_value_shown {o : TxOutput} (h : (o.value.toNat : Int) ≤ Int64.maxValue.toInt) :
    (shown o).value.toInt = o.value.toNat :=
  toInt_toInt64 h

/-- An output has a record when its value fits, and only that one. -/
theorem ofOutput_eq_ok_iff {o : TxOutput} {r : OutputRecord} :
    ofOutput o = .ok r ↔ (o.value.toNat : Int) ≤ Int64.maxValue.toInt ∧ r = shown o := by
  rw [ofOutput]
  constructor
  · intro h
    split at h
    · cases h
    · rename_i hfits
      exact ⟨Int.not_lt.mp hfits, (Except.ok.inj h).symm⟩
  · rintro ⟨hfits, rfl⟩
    rw [if_neg (Int.not_lt.mpr hfits)]
    rfl

/-- The record of an output describes the output, under the address that the label gives it. -/
theorem toOutput_shown (label : String) {o : TxOutput}
    (h : (o.value.toNat : Int) ≤ Int64.maxValue.toInt) :
    (shown o).toOutput label = .ok (.derive label o.value o.locking) := by
  have hnonneg : ¬ (shown o).value < 0 := by
    rw [Int64.lt_iff_toInt_lt, toInt_value_shown h]
    exact Int.not_lt.mpr (Int.natCast_nonneg _)
  have hlocking : Script.parse (shown o).pkScript = .ok o.locking :=
    Script.parse_encode o.locking.bytes
  rw [toOutput, if_neg hnonneg, hlocking]
  rfl

end OutputRecord

/-! ## Totals -/

/-- The sum of the values of some outputs, as `Tx.outputTotal` takes it. -/
def valueTotal (os : List TxOutput) : Nat :=
  os.foldr (fun o n => o.value.toNat + n) 0

theorem valueTotal_cons (o : TxOutput) (os : List TxOutput) :
    valueTotal (o :: os) = o.value.toNat + valueTotal os :=
  rfl

theorem value_le_valueTotal {os : List TxOutput} {o : TxOutput} (h : o ∈ os) :
    o.value.toNat ≤ valueTotal os := by
  induction os with
  | nil => cases h
  | cons p os ih =>
    rw [valueTotal_cons]
    rcases List.mem_cons.mp h with rfl | h
    · exact Nat.le_add_right _ _
    · exact Nat.le_trans (ih h) (Nat.le_add_left _ _)

theorem exactSum_shown {os : List TxOutput}
    (h : ∀ o ∈ os, (o.value.toNat : Int) ≤ Int64.maxValue.toInt) :
    TxRecord.exactSum ((os.map OutputRecord.shown).map (·.value)) = valueTotal os := by
  induction os with
  | nil => rfl
  | cons o os ih =>
    rw [List.forall_mem_cons] at h
    rw [List.map_cons, List.map_cons, TxRecord.exactSum, ih h.2, OutputRecord.toInt_value_shown h.1,
      valueTotal_cons, Int.natCast_add]

/-- The record holds the value of each of some outputs if it holds them together. -/
theorem fits_of_valueTotal {os : List TxOutput} (h : (valueTotal os : Int) ≤ Int64.maxValue.toInt) :
    ∀ o ∈ os, (o.value.toNat : Int) ≤ Int64.maxValue.toInt :=
  fun _ ho => Int.le_trans (Int.ofNat_le.mpr (value_le_valueTotal ho)) h

namespace TxRecord

/-- The outputs of a record are the outputs as they are shown. -/
theorem mapM_ofOutput_eq_ok_iff {os : List TxOutput} {rs : List OutputRecord} :
    os.mapM OutputRecord.ofOutput = .ok rs ↔
      (∀ o ∈ os, (o.value.toNat : Int) ≤ Int64.maxValue.toInt) ∧
        rs = os.map OutputRecord.shown := by
  rw [mapM_eq_ok_iff]
  constructor
  · intro h
    induction h with
    | nil => exact ⟨List.forall_mem_nil _, rfl⟩
    | cons ho _ ih =>
      obtain ⟨hfits, rfl⟩ := OutputRecord.ofOutput_eq_ok_iff.mp ho
      exact ⟨List.forall_mem_cons.mpr ⟨hfits, ih.1⟩, by rw [List.map_cons, ih.2]⟩
  · rintro ⟨hfits, rfl⟩
    rw [List.forall₂_map_right_iff, List.forall₂_same]
    exact fun o ho => OutputRecord.ofOutput_eq_ok_iff.mpr ⟨hfits o ho, rfl⟩

/-- Inputs are shown without the amounts that they spend. -/
theorem checkedSum?_ofInput (is : List TxInput) :
    checkedSum? 0 ((is.map InputRecord.ofInput).map (·.value)) = some 0 := by
  have hzero : ∀ v ∈ (is.map InputRecord.ofInput).map (·.value), v = 0 := by
    intro v hv
    obtain ⟨i, hi, rfl⟩ := List.mem_map.mp hv
    obtain ⟨x, -, rfl⟩ := List.mem_map.mp hi
    rfl
  generalize (is.map InputRecord.ofInput).map (·.value) = vs at hzero
  induction vs with
  | nil => rfl
  | cons v vs ih =>
    rw [List.forall_mem_cons] at hzero
    obtain ⟨rfl, hrest⟩ := hzero
    exact ih hrest

/-- The record of a transaction whose outputs together come to the given amount. -/
def shown (w : Tx) (total : Int64) : TxRecord :=
  { empty with
    hash := w.hash.display
    size := Int32.ofNat w.size
    version := w.version.toInt32
    lockTime := w.lockTime
    inputs := w.inputs.map InputRecord.ofInput
    outputs := w.outputs.map OutputRecord.shown
    outputVal := total }

/-- **A transaction has a record when its outputs together fit**, and only one. -/
theorem ofTx_eq_ok_iff {w : Tx} {m : TxRecord} :
    ofTx w = .ok m ↔ ∃ total : Int64, total.toInt = w.outputTotal ∧ m = shown w total := by
  constructor
  · intro h
    rw [ofTx] at h
    cases houtputs : w.outputs.mapM OutputRecord.ofOutput with
    | error e =>
      rw [houtputs] at h
      cases h
    | ok rs =>
      obtain ⟨hfits, rfl⟩ := mapM_ofOutput_eq_ok_iff.mp houtputs
      -- Inputs are shown without amounts, so the sum of the outputs is the only one that can fail.
      simp only [houtputs, updateTotals, run_setTotals, checkedSum?_ofInput] at h
      cases htotal : checkedSum? 0 ((w.outputs.map OutputRecord.shown).map (·.value)) with
      | none =>
        rw [htotal] at h
        cases h
      | some total =>
        rw [htotal] at h
        have hexact := toInt_of_checkedSum? htotal
        rw [exactSum_shown hfits] at hexact
        exact ⟨total, hexact.trans (Int.zero_add _), (Except.ok.inj h).symm⟩
  · rintro ⟨total, htotal, rfl⟩
    have hfits : ∀ o ∈ w.outputs, (o.value.toNat : Int) ≤ Int64.maxValue.toInt :=
      fits_of_valueTotal (htotal ▸ total.toInt_le)
    have hsum : checkedSum? 0 ((w.outputs.map OutputRecord.shown).map (·.value)) = some total := by
      -- No amount is negative, so what holds the last sum holds every sum before it.
      refine checkedSum?_of_nonneg ?_ (Int.le_refl 0) ?_
      · intro v hv
        obtain ⟨r, hr, rfl⟩ := List.mem_map.mp hv
        obtain ⟨o, ho, rfl⟩ := List.mem_map.mp hr
        rw [OutputRecord.toInt_value_shown (hfits o ho)]
        exact Int.natCast_nonneg _
      · rw [exactSum_shown hfits]
        exact htotal.trans (Int.zero_add _).symm
    rw [ofTx, mapM_ofOutput_eq_ok_iff.mpr ⟨hfits, rfl⟩]
    simp only [updateTotals, run_setTotals, checkedSum?_ofInput, hsum]
    rfl

/-- The record of a transaction describes, under every label, a transaction with the same bytes. -/
theorem toTx_shown (label : String) {w : Tx} {total : Int64} (htotal : total.toInt = w.outputTotal) :
    ∃ x, (shown w total).toTx label = .ok x ∧ x.encode = w.encode := by
  have hfits : ∀ o ∈ w.outputs, (o.value.toNat : Int) ≤ Int64.maxValue.toInt :=
    fits_of_valueTotal (htotal ▸ total.toInt_le)
  refine ⟨_, toTx_eq_ok_iff.mpr
    ⟨w.inputs.map fun i => .derive label i.prevHash i.prevIndex i.unlocking i.sequence,
      w.outputs.map fun o => .derive label o.value o.locking, ?_, ?_, rfl⟩, ?_⟩
  · rw [shown, List.forall₂_map_left_iff, List.forall₂_map_right_iff, List.forall₂_same]
    exact fun i _ => InputRecord.toInput_ofInput label i
  · rw [shown, List.forall₂_map_left_iff, List.forall₂_map_right_iff, List.forall₂_same]
    exact fun o ho => OutputRecord.toOutput_shown label (hfits o ho)
  · -- Addresses and tokens are kept beside the bytes, so deriving them anew changes none.
    have hversion : (shown w total).version.toUInt32 = w.version := w.version.toUInt32_toInt32
    simp only [Tx.encode, Tx.build, Tx.encodeParts, hversion, List.length_map, List.flatMap_map]
    rfl

theorem outputTotal?_of_toInt {w : Tx} {total : Int64} (htotal : total.toInt = w.outputTotal) :
    w.outputTotal? = some total.toUInt64 := by
  have hnat : total.toUInt64.toNat = w.outputTotal := toNat_toUInt64 htotal
  rw [Tx.outputTotal?, ← hnat, if_pos total.toUInt64.toNat_lt, UInt64.ofNat_toNat]

/-- **Showing a transaction loses nothing of its bytes.** There is a record exactly when the outputs
together come to less than 2⁶³. It has the name of the transaction and the sum of its outputs,
nothing spent and no fee, and under every label it describes a transaction with the same bytes. -/
theorem ofTx_lossless (w : Tx) :
    ((∃ m, ofTx w = .ok m) ↔ (w.outputTotal : Int) ≤ Int64.maxValue.toInt) ∧
      ∀ m, ofTx w = .ok m → m.hash = w.hash.display ∧
        m.outputVal.toInt = w.outputTotal ∧ w.outputTotal? = some m.outputVal.toUInt64 ∧
        m.inputVal = 0 ∧ m.networkFee = 0 ∧
        ∀ label, ∃ x, m.toTx label = .ok x ∧ x.encode = w.encode := by
  refine ⟨⟨?_, fun hle => ?_⟩, fun m hm => ?_⟩
  · rintro ⟨m, hm⟩
    obtain ⟨total, htotal, -⟩ := ofTx_eq_ok_iff.mp hm
    exact htotal ▸ total.toInt_le
  · obtain ⟨total, htotal⟩ := exists_toInt_eq .maxValue (Int.natCast_nonneg _) hle
    exact ⟨_, ofTx_eq_ok_iff.mpr ⟨total, htotal, rfl⟩⟩
  · obtain ⟨total, htotal, rfl⟩ := ofTx_eq_ok_iff.mp hm
    exact ⟨rfl, htotal, outputTotal?_of_toInt htotal, rfl, rfl, fun label => toTx_shown label htotal⟩

/-- A version and an amount at the far ends of the numbers with a sign, a script that is none, and a
hash whose digits are not the same from both ends. -/
def sampleShown : Tx :=
  .build testLabel 0xffffffff [.derive testLabel (.ofContent []) 7 ⟨[0x4c, 0xff]⟩ 0]
    [.derive testLabel 0x7ffffffffffffffe ⟨[0xef, 0x01]⟩, .derive testLabel 1 .empty] 0x80000000

theorem ofTx_lossless_greatest :
    ∃ m, ofTx sampleShown = .ok m ∧ m.outputVal = Int64.maxValue ∧
      ∃ x, m.toTx mainLabel = .ok x ∧ x.encode = sampleShown.encode := by
  have hfits : (sampleShown.outputTotal : Int) ≤ Int64.maxValue.toInt := by decide
  obtain ⟨hexists, hshown⟩ := ofTx_lossless sampleShown
  obtain ⟨m, hm⟩ := hexists.mpr hfits
  obtain ⟨-, htotal, -, -, -, hback⟩ := hshown m hm
  have hgreatest : (sampleShown.outputTotal : Int) = Int64.maxValue.toInt := by decide
  exact ⟨m, hm, Int64.toInt_inj.mp (htotal.trans hgreatest), hback mainLabel⟩

end TxRecord

end CashWallet
