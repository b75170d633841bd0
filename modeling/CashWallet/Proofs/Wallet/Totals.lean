import CashWallet.Wallet.TxRecord

/-!
# `CashWallet/Proofs/Wallet/Totals.lean` — sums of amounts

Amounts are numbers of 64 bits with a sign, and every sum of them is checked on the way. Each check
is one law: a number of 64 bits is the sum when as integers it is the sum
(`TxRecord.checkedAdd?_eq_some_iff`). So **a total that is reckoned is the exact one**
(`TxRecord.toInt_of_checkedSum?`). The other way round it takes amounts that are not negative,
because then no sum on the way is larger than the last (`TxRecord.checkedSum?_of_nonneg`); with
amounts of both signs the order decides.

A record is given its totals in steps, and each of the three sums can fail. **No failure comes after
something was set** (`TxRecord.run_setTotals`), so a record has its exact totals and their exact
difference, or it is as it was (`TxRecord.setTotals_exact`).

The fee is the difference of the two totals where anything is spent, and it may be negative. A
record that shows a transaction which was received has no amounts at its inputs, so nothing is known
to be spent and no fee is reckoned. Of two totals that are not negative the difference always fits.
-/

set_option autoImplicit false

namespace CashWallet.TxRecord

/-- The numbers of 64 bits are the integers between their bounds. -/
theorem toInt64?_eq_some_iff {n : Int} {v : Int64} : toInt64? n = some v ↔ v.toInt = n := by
  have hleast : Int64.minValue.toInt = -9223372036854775808 := rfl
  have hgreatest : Int64.maxValue.toInt = 9223372036854775807 := rfl
  rw [toInt64?]
  constructor
  · intro h
    split at h
    · rename_i hn
      obtain rfl := Option.some.inj h
      rw [hleast, hgreatest] at hn
      exact Int64.toInt_ofInt_of_le hn.1 (Int.lt_add_one_of_le hn.2)
    · cases h
  · rintro rfl
    rw [if_pos ⟨v.minValue_le_toInt, v.toInt_le⟩, Int64.ofInt_toInt]

/-- A checked sum is the exact one, and is there whenever that fits. -/
theorem checkedAdd?_eq_some_iff {a b c : Int64} :
    checkedAdd? a b = some c ↔ c.toInt = a.toInt + b.toInt :=
  toInt64?_eq_some_iff

theorem exists_toInt_of_range {n : Int} (hleast : Int64.minValue.toInt ≤ n)
    (hgreatest : n ≤ Int64.maxValue.toInt) : ∃ v : Int64, v.toInt = n :=
  ⟨.ofInt n, toInt64?_eq_some_iff.mp (by rw [toInt64?, if_pos ⟨hleast, hgreatest⟩])⟩

/-- An integer between two numbers of 64 bits is one. -/
theorem exists_toInt_eq {n : Int} (greatest : Int64) (hpos : 0 ≤ n) (hle : n ≤ greatest.toInt) :
    ∃ v : Int64, v.toInt = n :=
  exists_toInt_of_range (Int.le_trans (show Int64.minValue.toInt ≤ 0 by decide) hpos)
    (Int.le_trans hle greatest.toInt_le)

/-- The sum of some amounts as integers. -/
def exactSum : List Int64 → Int
  | [] => 0
  | v :: rest => v.toInt + exactSum rest

theorem exactSum_nonneg {vs : List Int64} (h : ∀ v ∈ vs, 0 ≤ v.toInt) : 0 ≤ exactSum vs := by
  induction vs with
  | nil => exact Int.le_refl 0
  | cons v vs ih =>
    rw [List.forall_mem_cons] at h
    exact Int.add_nonneg h.1 (ih h.2)

/-- A total that is reckoned is the exact one. -/
theorem toInt_of_checkedSum? {start total : Int64} {vs : List Int64}
    (h : checkedSum? start vs = some total) : total.toInt = start.toInt + exactSum vs := by
  induction vs generalizing start with
  | nil =>
    obtain rfl := Option.some.inj h
    exact (Int.add_zero _).symm
  | cons v vs ih =>
    obtain ⟨first, hfirst, hrest⟩ := Option.bind_eq_some_iff.mp h
    rw [ih hrest, checkedAdd?_eq_some_iff.mp hfirst, exactSum, Int.add_assoc]

/-- Where no amount is negative the exact total is reckoned whenever it fits. -/
theorem checkedSum?_of_nonneg {start total : Int64} {vs : List Int64} (hvs : ∀ v ∈ vs, 0 ≤ v.toInt)
    (hstart : 0 ≤ start.toInt) (h : total.toInt = start.toInt + exactSum vs) :
    checkedSum? start vs = some total := by
  induction vs generalizing start with
  | nil =>
    rw [exactSum, Int.add_zero] at h
    rw [checkedSum?, Int64.toInt_inj.mp h]
  | cons v vs ih =>
    rw [List.forall_mem_cons] at hvs
    obtain ⟨hv, hrest⟩ := hvs
    have hnonneg := exactSum_nonneg hrest
    rw [exactSum, ← Int.add_assoc] at h
    -- The sum on the way lies between zero and the total.
    obtain ⟨first, hfirst⟩ := exists_toInt_eq total (Int.add_nonneg hstart hv) (by omega)
    rw [checkedSum?, checkedAdd?_eq_some_iff.mpr hfirst, Option.bind_some]
    exact ih hrest (by omega) (by omega)

theorem checkedSum?_eq_some_iff_of_nonneg {total : Int64} {vs : List Int64}
    (hvs : ∀ v ∈ vs, 0 ≤ v.toInt) :
    checkedSum? 0 vs = some total ↔ total.toInt = exactSum vs := by
  constructor
  · intro h
    exact (toInt_of_checkedSum? h).trans (Int.zero_add _)
  · intro h
    exact checkedSum?_of_nonneg hvs (Int.le_refl 0) (h.trans (Int.zero_add _).symm)

/-! ## Fees -/

/-- The fee is exact, and nothing where nothing is spent. -/
theorem fee?_eq_some_iff {inputVal outputVal networkFee : Int64} :
    fee? inputVal outputVal = some networkFee ↔
      networkFee.toInt = if 0 < inputVal.toInt then inputVal.toInt - outputVal.toInt else 0 := by
  have hpos : 0 < inputVal ↔ 0 < inputVal.toInt := Int64.lt_iff_toInt_lt
  rw [fee?]
  by_cases h : 0 < inputVal
  · rw [if_pos h, if_pos (hpos.mp h)]
    exact toInt64?_eq_some_iff
  · rw [if_neg h, if_neg (not_congr hpos |>.mp h), Option.some.injEq, eq_comm, ← Int64.toInt_inj]
    rfl

/-- Totals that are not negative have a fee, which may be. -/
theorem exists_fee? {inputVal outputVal : Int64} (hin : 0 ≤ inputVal.toInt)
    (hout : 0 ≤ outputVal.toInt) : ∃ networkFee, fee? inputVal outputVal = some networkFee := by
  have hleast : Int64.minValue.toInt = -9223372036854775808 := rfl
  have hgreatest : Int64.maxValue.toInt = 9223372036854775807 := rfl
  have hinle := inputVal.toInt_le
  have houtle := outputVal.toInt_le
  obtain ⟨difference, hdifference⟩ :=
    exists_toInt_of_range (n := inputVal.toInt - outputVal.toInt) (by omega) (by omega)
  by_cases h : 0 < inputVal.toInt
  · exact ⟨difference, fee?_eq_some_iff.mpr (by rw [if_pos h, hdifference])⟩
  · exact ⟨0, fee?_eq_some_iff.mpr (by rw [if_neg h]; rfl)⟩

/-! ## Setting the totals -/

/-- **All that setting the totals can do**: the first sum that does not fit is the failure, and
leaves the record as it was. -/
theorem run_setTotals (t : TxRecord) :
    setTotals.run t =
      match checkedSum? 0 (t.inputs.map (·.value)) with
      | none => .error (.invalidTransaction .inputTotalOutOfRange) t
      | some inputVal =>
        match checkedSum? 0 (t.outputs.map (·.value)) with
        | none => .error (.invalidTransaction .outputTotalOutOfRange) t
        | some outputVal =>
          match fee? inputVal outputVal with
          | none => .error (.invalidTransaction .feeOutOfRange) t
          | some networkFee => .ok () { t with inputVal, outputVal, networkFee } := by
  rw [setTotals]
  cases hin : checkedSum? 0 (t.inputs.map (·.value)) with
  | none => simp only [EStateM.run_bind, EStateM.run_get, hin, run_reckoned_none]
  | some inputVal =>
    cases hout : checkedSum? 0 (t.outputs.map (·.value)) with
    | none =>
      simp only [EStateM.run_bind, EStateM.run_get, hin, hout, run_reckoned_some, run_reckoned_none]
    | some outputVal =>
      cases hfee : fee? inputVal outputVal with
      | none =>
        simp only [EStateM.run_bind, EStateM.run_get, hin, hout, hfee, run_reckoned_some,
          run_reckoned_none]
      | some networkFee =>
        simp only [EStateM.run_bind, EStateM.run_get, EStateM.run_modify, hin, hout, hfee,
          run_reckoned_some]

/-- Setting the totals succeeds when all three sums do, and changes nothing else. -/
theorem setTotals_eq_ok_iff {t updated : TxRecord} :
    setTotals.run t = .ok () updated ↔
      ∃ inputVal outputVal networkFee, checkedSum? 0 (t.inputs.map (·.value)) = some inputVal ∧
        checkedSum? 0 (t.outputs.map (·.value)) = some outputVal ∧
        fee? inputVal outputVal = some networkFee ∧
        updated = { t with inputVal, outputVal, networkFee } := by
  rw [run_setTotals]
  constructor
  · intro h
    split at h
    · cases h
    · rename_i inputVal hin
      split at h
      · cases h
      · rename_i outputVal hout
        split at h
        · cases h
        · rename_i networkFee hfee
          cases h
          exact ⟨inputVal, outputVal, networkFee, hin, hout, hfee, rfl⟩
  · rintro ⟨inputVal, outputVal, networkFee, hin, hout, hfee, rfl⟩
    simp only [hin, hout, hfee]

theorem eq_of_setTotals_eq_error {t left : TxRecord} {e : WalletError}
    (h : setTotals.run t = .error e left) : left = t := by
  rw [run_setTotals] at h
  split at h
  · cases h
    rfl
  · split at h
    · cases h
      rfl
    · split at h
      · cases h
        rfl
      · cases h

/-- **Totals are exact, or the record is as it was.** When setting the totals succeeds, the totals
are the sums of the amounts of the inputs and of the outputs as integers, the fee is their
difference as integers if more than nothing is spent and nothing otherwise, and the record is the
same in all else. When it fails, nothing of the record is changed. And when no amount is negative,
it succeeds exactly when 64 bits hold both sums. -/
theorem setTotals_exact (t : TxRecord) :
    (∀ updated, setTotals.run t = .ok () updated →
      updated.inputVal.toInt = exactSum (t.inputs.map (·.value)) ∧
      updated.outputVal.toInt = exactSum (t.outputs.map (·.value)) ∧
      updated.networkFee.toInt = (if 0 < updated.inputVal.toInt then
        updated.inputVal.toInt - updated.outputVal.toInt else 0) ∧
      updated = { t with
        inputVal := updated.inputVal
        outputVal := updated.outputVal
        networkFee := updated.networkFee }) ∧
    (∀ e left, setTotals.run t = .error e left → left = t) ∧
    ((∀ i ∈ t.inputs, 0 ≤ i.value.toInt) → (∀ o ∈ t.outputs, 0 ≤ o.value.toInt) →
      ((∃ updated, setTotals.run t = .ok () updated) ↔
        exactSum (t.inputs.map (·.value)) ≤ Int64.maxValue.toInt ∧
          exactSum (t.outputs.map (·.value)) ≤ Int64.maxValue.toInt)) := by
  refine ⟨fun updated h => ?_, fun e left => eq_of_setTotals_eq_error, fun hins houts => ?_⟩
  · obtain ⟨inputVal, outputVal, networkFee, hin, hout, hfee, rfl⟩ := setTotals_eq_ok_iff.mp h
    exact ⟨(toInt_of_checkedSum? hin).trans (Int.zero_add _),
      (toInt_of_checkedSum? hout).trans (Int.zero_add _), fee?_eq_some_iff.mp hfee, rfl⟩
  · have hins : ∀ v ∈ t.inputs.map (·.value), 0 ≤ v.toInt := List.forall_mem_map.mpr hins
    have houts : ∀ v ∈ t.outputs.map (·.value), 0 ≤ v.toInt := List.forall_mem_map.mpr houts
    constructor
    · rintro ⟨updated, h⟩
      obtain ⟨inputVal, outputVal, networkFee, hin, hout, -, -⟩ := setTotals_eq_ok_iff.mp h
      rw [checkedSum?_eq_some_iff_of_nonneg hins] at hin
      rw [checkedSum?_eq_some_iff_of_nonneg houts] at hout
      exact ⟨hin ▸ inputVal.toInt_le, hout ▸ outputVal.toInt_le⟩
    · rintro ⟨hin, hout⟩
      obtain ⟨inputVal, hin⟩ := exists_toInt_eq .maxValue (exactSum_nonneg hins) hin
      obtain ⟨outputVal, hout⟩ := exists_toInt_eq .maxValue (exactSum_nonneg houts) hout
      obtain ⟨networkFee, hfee⟩ := exists_fee? (hin ▸ exactSum_nonneg hins)
        (hout ▸ exactSum_nonneg houts)
      exact ⟨_, setTotals_eq_ok_iff.mpr ⟨inputVal, outputVal, networkFee,
        (checkedSum?_eq_some_iff_of_nonneg hins).mpr hin,
        (checkedSum?_eq_some_iff_of_nonneg houts).mpr hout, hfee, rfl⟩⟩

/-- A record of some amounts, with totals that are none of theirs. -/
def sampleAmounts (spent paid : List Int64) : TxRecord :=
  { empty with
    inputs := spent.map fun value => ⟨0, value, "", 0, "", "", none⟩
    outputs := paid.map fun value => ⟨value, false, "", ""⟩
    inputVal := 1
    outputVal := 2
    networkFee := 3 }

/-- When more is paid than spent the fee is below zero, and when one more is spent than 64 bits hold
the record keeps its totals. -/
theorem setTotals_exact_overdrawn :
    (∃ updated, setTotals.run (sampleAmounts [5] [3, 4]) = .ok () updated ∧
      updated.networkFee.toInt = -2) ∧
    ∃ e, setTotals.run (sampleAmounts [Int64.maxValue, 1] [0]) =
      .error e (sampleAmounts [Int64.maxValue, 1] [0]) := by
  constructor
  · obtain ⟨hexact, -, hfits⟩ := setTotals_exact (sampleAmounts [5] [3, 4])
    obtain ⟨updated, hok⟩ := (hfits (by decide) (by decide)).mpr ⟨by decide, by decide⟩
    obtain ⟨hin, hout, hfee, -⟩ := hexact updated hok
    refine ⟨updated, hok, ?_⟩
    rw [hfee, hin, hout]
    decide
  · obtain ⟨-, hkept, hfits⟩ := setTotals_exact (sampleAmounts [Int64.maxValue, 1] [0])
    cases hrun : setTotals.run (sampleAmounts [Int64.maxValue, 1] [0]) with
    | ok _ updated =>
      have hsums := (hfits (by decide) (by decide)).mp ⟨updated, hrun⟩
      exact absurd hsums.1 (by decide)
    | error e left => exact ⟨e, by rw [hkept e left hrun]⟩

end CashWallet.TxRecord
