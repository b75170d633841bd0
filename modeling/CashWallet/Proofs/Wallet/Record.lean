import CashWallet.Proofs.Text.Hex
import CashWallet.Proofs.Transaction.Commitment
import CashWallet.Wallet.TxRecord
import Mathlib.Data.List.Forall2

/-!
# `CashWallet/Proofs/Wallet/Record.lean` — the transaction that a record describes

A record describes a transaction when each of its inputs and each of its outputs describes one, and
the label has no part in that: **a record that describes a transaction under one label describes one
under every label**, and the two spend and pay the same. The scripts in the fields for signatures
have no part in it either, as long as they are digits (`TxRecord.toTx_resigned`).

What an input describes is said in one lemma (`InputRecord.toInput_eq_ok_iff`): its two texts can be
read, and the rest is copied. The label goes into the address that is kept beside the unlocking
script, and the unlocking script into what no signature sees, so neither is part of what the input
spends. Rows follow element by element, since a row of readings succeeds when each of them does
(`mapM_eq_ok_iff`).

Signing uses this twice. The record keeps describing a transaction while its inputs get their
signatures, and the check at the end may read it under another label than the one it was signed
under.
-/

set_option autoImplicit false

namespace CashWallet

/-- A walk along a list that may fail succeeds when every step does. -/
theorem mapM_eq_ok_iff {ε α β : Type} {f : α → Except ε β} {as : List α} {bs : List β} :
    as.mapM f = .ok bs ↔ List.Forall₂ (fun a b => f a = .ok b) as bs := by
  induction as generalizing bs with
  | nil =>
    rw [List.mapM_nil, List.forall₂_nil_left_iff]
    constructor
    · intro h
      cases h
      rfl
    · rintro rfl
      rfl
  | cons a as ih =>
    rw [List.mapM_cons]
    constructor
    · intro h
      cases ha : f a with
      | error e =>
        rw [ha] at h
        cases h
      | ok b =>
        rw [ha] at h
        cases has : as.mapM f with
        | error e =>
          rw [has] at h
          cases h
        | ok rest =>
          rw [has] at h
          cases h
          exact .cons ha (ih.mp has)
    · rintro (_ | ⟨ha, has⟩)
      rw [ha, ih.mpr has]
      rfl

theorem Script.parse_encode (b : Bytes) : Script.parse (Hex.encode b) = .ok ⟨b⟩ := by
  rw [parse, Hex.decode_encode]

namespace InputRecord

theorem toInput_eq_ok_iff {label : String} {i : InputRecord} {x : TxInput} :
    i.toInput label = .ok x ↔ ∃ unlocking prevHash, Script.parse i.signature = .ok unlocking ∧
      Hash256.parse i.prevHash = .ok prevHash ∧
      x = .derive label prevHash i.prevIndex unlocking i.sequence := by
  rw [toInput]
  cases hunlocking : Script.parse i.signature with
  | error e => simp
  | ok unlocking =>
    cases hhash : Hash256.parse i.prevHash with
    | error e => simp
    | ok prevHash =>
      constructor
      · intro h
        exact ⟨unlocking, prevHash, rfl, rfl, (Except.ok.inj h).symm⟩
      · rintro ⟨unlocking', prevHash', hu, hp, rfl⟩
        cases hu
        cases hp
        rfl

/-- With other digits for a signature an input describes one that spends the same. -/
theorem toInput_resigned {label : String} {i : InputRecord} {x : TxInput}
    (h : i.toInput label = .ok x) (label' : String) {signature : String} {unlocking : Script}
    (hs : Script.parse signature = .ok unlocking) :
    ∃ y, { i with signature }.toInput label' = .ok y ∧ y.spend = x.spend := by
  obtain ⟨_, prevHash, -, hhash, rfl⟩ := toInput_eq_ok_iff.mp h
  exact ⟨_, toInput_eq_ok_iff.mpr ⟨unlocking, prevHash, hs, hhash, rfl⟩, rfl⟩

theorem isEmpty_of_ne {input : InputRecord} (h : input.pubScript ≠ "") :
    input.pubScript.isEmpty = false :=
  Bool.eq_false_iff.mpr fun hempty => h (by simpa using hempty)

theorem spentValue_of_nonneg {input : InputRecord} (h : 0 ≤ input.value) (index : Nat) :
    input.spentValue index = .ok input.value.toUInt64 := by
  rw [spentValue, if_neg (Int64.not_lt.mpr h)]

/-- The second input is the first, but for the digits of its unlocking script. -/
def IsResigned (i j : InputRecord) : Prop :=
  ∃ signature unlocking, Script.parse signature = .ok unlocking ∧ j = { i with signature }

end InputRecord

/-- Under another label an output describes one that pays the same. -/
theorem OutputRecord.toOutput_relabel {label : String} {o : OutputRecord} {x : TxOutput}
    (h : o.toOutput label = .ok x) (label' : String) :
    ∃ y, o.toOutput label' = .ok y ∧ y.payment = x.payment := by
  rw [toOutput] at h ⊢
  by_cases hvalue : o.value < 0
  · rw [if_pos hvalue] at h
    cases h
  rw [if_neg hvalue] at h ⊢
  cases hlocking : Script.parse o.pkScript with
  | error e =>
    rw [hlocking] at h
    cases h
  | ok locking =>
    rw [hlocking] at h
    cases h
    exact ⟨_, rfl, rfl⟩

/-! ## Rows of inputs and of outputs -/

theorem forall₂_toInput_resigned {label : String} {is js : List InputRecord} {xs : List TxInput}
    (hdescribe : List.Forall₂ (fun i x => InputRecord.toInput label i = .ok x) is xs)
    (hresigned : List.Forall₂ InputRecord.IsResigned is js) (label' : String) :
    ∃ ys, List.Forall₂ (fun j y => InputRecord.toInput label' j = .ok y) js ys ∧
      ys.map TxInput.spend = xs.map TxInput.spend := by
  induction hdescribe generalizing js with
  | nil =>
    cases hresigned
    exact ⟨[], .nil, rfl⟩
  | cons hi _ ih =>
    cases hresigned with
    | cons hj hrest =>
      obtain ⟨signature, unlocking, hs, rfl⟩ := hj
      obtain ⟨ys, hys, hspend⟩ := ih hrest
      obtain ⟨y, hy, hsame⟩ := InputRecord.toInput_resigned hi label' hs
      exact ⟨y :: ys, .cons hy hys, by rw [List.map_cons, List.map_cons, hsame, hspend]⟩

/-- Inputs that describe something have digits for their signatures, so they differ from themselves
in nothing else. -/
theorem forall₂_isResigned_self {label : String} {is : List InputRecord} {xs : List TxInput}
    (h : List.Forall₂ (fun i x => InputRecord.toInput label i = .ok x) is xs) :
    List.Forall₂ InputRecord.IsResigned is is := by
  induction h with
  | nil => exact .nil
  | @cons i x _ _ hi _ ih =>
    -- What is there already are digits, or the record would describe nothing.
    obtain ⟨unlocking, prevHash, hs, -⟩ := InputRecord.toInput_eq_ok_iff.mp hi
    exact .cons ⟨i.signature, unlocking, hs, rfl⟩ ih

theorem forall₂_toOutput_relabel {label : String} {os : List OutputRecord} {xs : List TxOutput}
    (hdescribe : List.Forall₂ (fun o x => OutputRecord.toOutput label o = .ok x) os xs)
    (label' : String) :
    ∃ ys, List.Forall₂ (fun o y => OutputRecord.toOutput label' o = .ok y) os ys ∧
      ys.map TxOutput.payment = xs.map TxOutput.payment := by
  induction hdescribe with
  | nil => exact ⟨[], .nil, rfl⟩
  | cons ho _ ih =>
    obtain ⟨ys, hys, hpay⟩ := ih
    obtain ⟨y, hy, hsame⟩ := OutputRecord.toOutput_relabel ho label'
    exact ⟨y :: ys, .cons hy hys, by rw [List.map_cons, List.map_cons, hsame, hpay]⟩

namespace TxRecord

theorem toTx_eq_ok_iff {label : String} {t : TxRecord} {tx : Tx} :
    t.toTx label = .ok tx ↔ ∃ inputs outputs,
      List.Forall₂ (fun i x => InputRecord.toInput label i = .ok x) t.inputs inputs ∧
      List.Forall₂ (fun o x => OutputRecord.toOutput label o = .ok x) t.outputs outputs ∧
      tx = .build label t.version.toUInt32 inputs outputs t.lockTime := by
  simp only [← mapM_eq_ok_iff]
  rw [toTx]
  cases hins : t.inputs.mapM (InputRecord.toInput label) with
  | error e => simp
  | ok inputs =>
    cases houts : t.outputs.mapM (OutputRecord.toOutput label) with
    | error e => simp
    | ok outputs =>
      constructor
      · intro h
        exact ⟨inputs, outputs, rfl, rfl, (Except.ok.inj h).symm⟩
      · rintro ⟨inputs', outputs', hi, ho, rfl⟩
        cases hi
        cases ho
        rfl

theorem length_inputs_of_toTx {label : String} {t : TxRecord} {tx : Tx}
    (h : t.toTx label = .ok tx) : t.inputs.length = tx.inputs.length := by
  obtain ⟨xs, os, hxs, -, rfl⟩ := toTx_eq_ok_iff.mp h
  exact hxs.length_eq

/-- **Signing a record and changing the label** leave a record that describes a transaction which
spends and pays the same. -/
theorem toTx_resigned {label : String} {t signed : TxRecord} {tx : Tx}
    (h : t.toTx label = .ok tx) (hversion : signed.version = t.version)
    (hlock : signed.lockTime = t.lockTime) (houtputs : signed.outputs = t.outputs)
    (hinputs : List.Forall₂ InputRecord.IsResigned t.inputs signed.inputs) (label' : String) :
    ∃ tx', signed.toTx label' = .ok tx' ∧ Tx.SameSpend tx' tx ∧
      List.Forall₂ (fun i x => InputRecord.toInput label' i = .ok x) signed.inputs tx'.inputs := by
  obtain ⟨xs, os, hxs, hos, rfl⟩ := toTx_eq_ok_iff.mp h
  obtain ⟨ys, hys, hspend⟩ := forall₂_toInput_resigned hxs hinputs label'
  obtain ⟨ps, hps, hpay⟩ := forall₂_toOutput_relabel hos label'
  rw [← houtputs] at hps
  refine ⟨_, toTx_eq_ok_iff.mpr ⟨ys, ps, hys, hps, rfl⟩, ⟨?_, hspend, hpay, hlock⟩, hys⟩
  exact congrArg Int32.toUInt32 hversion

theorem toTx_relabel {label : String} {t : TxRecord} {tx : Tx} (h : t.toTx label = .ok tx)
    (label' : String) : ∃ tx', t.toTx label' = .ok tx' ∧ Tx.SameSpend tx' tx := by
  obtain ⟨xs, os, hxs, hos, rfl⟩ := toTx_eq_ok_iff.mp h
  obtain ⟨tx', htx', hsame, -⟩ := toTx_resigned h rfl rfl rfl (forall₂_isResigned_self hxs) label'
  exact ⟨tx', htx', hsame⟩

end TxRecord

end CashWallet
