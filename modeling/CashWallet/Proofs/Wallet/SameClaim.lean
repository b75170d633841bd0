import CashWallet.Proofs.Wallet.Signing

/-!
# `CashWallet/Proofs/Wallet/SameClaim.lean` — records that ask for the same to be signed

Two records may ask for the same spends and the same payments and yet differ, in the signatures that
their inputs come with and in what is noted beside inputs and outputs for people to read. The
relation between them is `TxRecord.SameClaim`, and **what the two describe differs in the unlocking
scripts alone** (`TxRecord.toTx_sameClaim`): the outcome is the same failure, or two transactions
that no signature can tell apart (`Tx.SameSpend`). Where the signatures are equal too, the two
describe one and the same transaction (`TxRecord.toTx_congr`), and so they pass the same checks
(`Signing.validate_congr`).

An outcome here is a success or a failure with its error, so that two runs side by side are compared
by `SameOutcome`, which holds of equal failures and of successes with related values. It carries
over from the inputs to the row (`SameOutcome.mapM`).

One condition is needed that the relation does not give: that the old signatures can be read as
scripts (`TxRecord.IsLegible`). A record with a signature that cannot describes no transaction at
all, and a record that differs from it in nothing else may well do so.

What an input has after signing is its new signature or what it came with (`InputRecord.resign`).
The lemmas on it say what a row of such inputs keeps: new signatures do not change what is asked for
(`InputRecord.forall₂_sameClaim_resign`), and where every input has a new one nothing of the old
ones is left (`InputRecord.map_signature_resign`).

Nothing here looks at keys, and whether a run of signing came as far as its last check can be seen
from its result (`Signing.IsChecked`), since no step on the way to it reports a failed validation.
-/

set_option autoImplicit false

namespace CashWallet

/-! ## Outcomes side by side -/

/-- The outcomes are one and the same failure, or successes with related values. -/
inductive SameOutcome {ε α β : Type} (R : α → β → Prop) : Except ε α → Except ε β → Prop
  | error (e : ε) : SameOutcome R (.error e) (.error e)
  | ok {a : α} {b : β} (h : R a b) : SameOutcome R (.ok a) (.ok b)

/-- Walks along two lists with related outcomes step by step have related outcomes. -/
theorem SameOutcome.mapM {ε α β γ δ : Type} {f : α → Except ε γ} {g : β → Except ε δ}
    {R : γ → δ → Prop} {as : List α} {bs : List β}
    (h : List.Forall₂ (fun a b => SameOutcome R (f a) (g b)) as bs) :
    SameOutcome (List.Forall₂ R) (as.mapM f) (bs.mapM g) := by
  induction h with
  | nil => exact .ok .nil
  | @cons a b as bs hhead _ ih =>
    rw [List.mapM_cons, List.mapM_cons]
    generalize f a = x at hhead
    generalize g b = y at hhead
    generalize as.mapM f = xs at ih
    generalize bs.mapM g = ys at ih
    cases hhead with
    | error e => exact .error e
    | ok hab =>
      cases ih with
      | error e => exact .error e
      | ok hrest => exact .ok (.cons hab hrest)

theorem mapM_congr {ε α β γ : Type} {f : α → Except ε γ} {g : β → Except ε γ} {as : List α}
    {bs : List β} (h : List.Forall₂ (fun a b => f a = g b) as bs) : as.mapM f = bs.mapM g := by
  induction h with
  | nil => rfl
  | cons hhead _ ih => rw [List.mapM_cons, List.mapM_cons, hhead, ih]

theorem mapM_ne_error {ε α β : Type} {f : α → Except ε β} {e : ε} (h : ∀ a, f a ≠ .error e) :
    ∀ as : List α, as.mapM f ≠ .error e
  | [] => fun hnil => by cases hnil
  | a :: as => by
    rw [List.mapM_cons]
    cases ha : f a with
    | error e' => exact fun he => h a (ha.trans (congrArg _ (Except.error.inj he)))
    | ok b =>
      have hrest := mapM_ne_error h as
      cases has : as.mapM f with
      | error e' => exact fun he => hrest (has.trans (congrArg _ (Except.error.inj he)))
      | ok bs => exact fun he => by cases he

/-! ## Asking for the same to be signed -/

namespace InputRecord

/-- The inputs differ at most in their signatures and in the addresses noted beside them. -/
structure SameClaim (i j : InputRecord) : Prop where
  sequence : i.sequence = j.sequence
  value : i.value = j.value
  prevHash : i.prevHash = j.prevHash
  prevIndex : i.prevIndex = j.prevIndex
  pubScript : i.pubScript = j.pubScript

/-- The signature that the input came with can be read as a script. -/
def IsLegible (i : InputRecord) : Prop :=
  ∃ unlocking, Script.parse i.signature = .ok unlocking

/-- The input with a new signature, or as it came. -/
def resign (i : InputRecord) : Option String → InputRecord
  | none => i
  | some signature => { i with signature }

theorem toInput_sameClaim {i j : InputRecord} (h : i.SameClaim j) (hi : i.IsLegible)
    (hj : j.IsLegible) (label : String) :
    SameOutcome (fun x y => x.spend = y.spend) (i.toInput label) (j.toInput label) := by
  obtain ⟨s, hs⟩ := hi
  obtain ⟨t, ht⟩ := hj
  simp only [toInput, hs, ht, h.prevHash, h.prevIndex, h.sequence]
  cases Hash256.parse j.prevHash with
  | error e => exact .error _
  | ok prevHash => exact .ok rfl

theorem toInput_congr {i j : InputRecord} (h : i.SameClaim j) (hsignature : i.signature = j.signature)
    (label : String) : i.toInput label = j.toInput label := by
  simp only [toInput, hsignature, h.prevHash, h.prevIndex, h.sequence]

theorem spentValue_congr {i j : InputRecord} (h : i.SameClaim j) (index : Nat) :
    i.spentValue index = j.spentValue index := by
  simp only [spentValue, h.value]

theorem zipWith_resign_none (inputs : List InputRecord) :
    List.zipWith resign inputs (List.replicate inputs.length none) = inputs := by
  induction inputs with
  | nil => rfl
  | cons i rest ih =>
    rw [List.length_cons, List.replicate_succ, List.zipWith_cons_cons, ih]
    rfl

theorem SameClaim.resign {i j : InputRecord} (h : i.SameClaim j) (m m' : Option String) :
    (i.resign m).SameClaim (j.resign m') := by
  cases m with
  | none =>
    cases m' with
    | none => exact h
    | some s => exact ⟨h.sequence, h.value, h.prevHash, h.prevIndex, h.pubScript⟩
  | some s =>
    cases m' with
    | none => exact ⟨h.sequence, h.value, h.prevHash, h.prevIndex, h.pubScript⟩
    | some s' => exact ⟨h.sequence, h.value, h.prevHash, h.prevIndex, h.pubScript⟩

/-- New signatures do not change what is asked for. -/
theorem forall₂_sameClaim_resign {inputs others : List InputRecord}
    (h : List.Forall₂ SameClaim inputs others) :
    ∀ {made made' : List (Option String)}, made.length = made'.length →
      List.Forall₂ SameClaim (List.zipWith InputRecord.resign inputs made)
        (List.zipWith InputRecord.resign others made') := by
  induction h with
  | nil => exact fun _ => .nil
  | cons hij _ ih =>
    intro made made' hlen
    cases made with
    | nil =>
      obtain rfl := List.length_eq_zero_iff.mp hlen.symm
      exact .nil
    | cons m made =>
      cases made' with
      | nil => cases hlen
      | cons m' made' => exact .cons (hij.resign m m') (ih (Nat.succ.inj hlen))

/-- Where all inputs get new signatures, the old ones are gone. -/
theorem map_signature_resign {inputs others : List InputRecord}
    (h : inputs.length = others.length) :
    ∀ {made : List (Option String)}, (∀ m ∈ made, m.isSome) →
      (List.zipWith InputRecord.resign inputs made).map InputRecord.signature =
        (List.zipWith InputRecord.resign others made).map InputRecord.signature := by
  induction inputs generalizing others with
  | nil =>
    intro made _
    obtain rfl := List.length_eq_zero_iff.mp h.symm
    rfl
  | cons i inputs ih =>
    intro made hmade
    cases others with
    | nil => cases h
    | cons j others =>
      cases made with
      | nil => rfl
      | cons m made =>
        obtain ⟨hm, hrest⟩ := List.forall_mem_cons.mp hmade
        obtain ⟨signature, rfl⟩ := Option.isSome_iff_exists.mp hm
        exact congrArg (signature :: ·) (ih (Nat.succ.inj h) hrest)

/-- Where all inputs have the signatures that are made for them, making them changes nothing. -/
theorem resign_resign (i : InputRecord) {m : Option String} (h : m.isSome) :
    (i.resign m).resign m = i.resign m := by
  obtain ⟨signature, rfl⟩ := Option.isSome_iff_exists.mp h
  rfl

end InputRecord

/-- The outputs differ at most in what is noted beside them. -/
structure OutputRecord.SameClaim (o p : OutputRecord) : Prop where
  value : o.value = p.value
  pkScript : o.pkScript = p.pkScript

theorem OutputRecord.toOutput_congr {o p : OutputRecord} (h : o.SameClaim p) (label : String) :
    o.toOutput label = p.toOutput label := by
  simp only [toOutput, h.value, h.pkScript]

/-- A row of outputs is read alike with them. -/
theorem OutputRecord.mapM_toOutput_congr {outputs others : List OutputRecord}
    (h : List.Forall₂ SameClaim outputs others) (label : String) :
    outputs.mapM (toOutput label) = others.mapM (toOutput label) :=
  mapM_congr (h.imp fun _ _ hop => toOutput_congr hop label)

namespace TxRecord

/-- The records ask for the same to be signed. -/
structure SameClaim (t u : TxRecord) : Prop where
  version : t.version = u.version
  lockTime : t.lockTime = u.lockTime
  inputs : List.Forall₂ InputRecord.SameClaim t.inputs u.inputs
  outputs : List.Forall₂ OutputRecord.SameClaim t.outputs u.outputs

def IsLegible (t : TxRecord) : Prop :=
  ∀ i ∈ t.inputs, i.IsLegible

theorem SameClaim.refl (t : TxRecord) : t.SameClaim t :=
  ⟨rfl, rfl, List.forall₂_same.mpr fun _ _ => ⟨rfl, rfl, rfl, rfl, rfl⟩,
    List.forall₂_same.mpr fun _ _ => ⟨rfl, rfl⟩⟩

theorem isLegible_of_toTx {label : String} {t : TxRecord} {tx : Tx} (h : t.toTx label = .ok tx) :
    t.IsLegible := by
  obtain ⟨xs, os, hxs, -, rfl⟩ := toTx_eq_ok_iff.mp h
  intro i hi
  obtain ⟨n, hn, rfl⟩ := List.getElem_of_mem hi
  obtain ⟨unlocking, prevHash, hs, -⟩ :=
    InputRecord.toInput_eq_ok_iff.mp (hxs.get hn (hxs.length_eq ▸ hn))
  exact ⟨unlocking, hs⟩

/-- Records that ask for the same describe transactions that spend and pay the same, or fail
alike. -/
theorem toTx_sameClaim {t u : TxRecord} (h : t.SameClaim u) (ht : t.IsLegible) (hu : u.IsLegible)
    (label : String) : SameOutcome Tx.SameSpend (t.toTx label) (u.toTx label) := by
  have hins : SameOutcome (List.Forall₂ fun x y : TxInput => x.spend = y.spend)
      (t.inputs.mapM (InputRecord.toInput label)) (u.inputs.mapM (InputRecord.toInput label)) := by
    obtain ⟨hlen, hpairs⟩ := List.forall₂_iff_zip.mp h.inputs
    refine .mapM (List.forall₂_iff_zip.mpr ⟨hlen, fun {i j} hmem => ?_⟩)
    exact InputRecord.toInput_sameClaim (hpairs hmem) (ht i (List.of_mem_zip hmem).1)
      (hu j (List.of_mem_zip hmem).2) label
  have houts := OutputRecord.mapM_toOutput_congr h.outputs label
  rw [toTx, toTx, houts]
  generalize t.inputs.mapM (InputRecord.toInput label) = xs at hins
  generalize u.inputs.mapM (InputRecord.toInput label) = ys at hins
  cases hins with
  | error e => exact .error e
  | @ok xs ys hspend =>
    cases u.outputs.mapM (OutputRecord.toOutput label) with
    | error e => exact .error e
    | ok outputs =>
      have hmap : xs.map TxInput.spend = ys.map TxInput.spend := by
        rwa [← List.forall₂_eq_eq_eq, List.forall₂_map_left_iff, List.forall₂_map_right_iff]
      exact .ok ⟨congrArg Int32.toUInt32 h.version, hmap, rfl, h.lockTime⟩

/-- Records that ask for the same and have the same signatures describe the same transaction. -/
theorem toTx_congr {t u : TxRecord} (h : t.SameClaim u)
    (hsignatures : t.inputs.map InputRecord.signature = u.inputs.map InputRecord.signature)
    (label : String) : t.toTx label = u.toTx label := by
  have hins : t.inputs.mapM (InputRecord.toInput label) =
      u.inputs.mapM (InputRecord.toInput label) := by
    rw [← List.forall₂_eq_eq_eq, List.forall₂_map_left_iff, List.forall₂_map_right_iff]
      at hsignatures
    exact mapM_congr (.mp (fun i j hij hsame => InputRecord.toInput_congr hij hsame label) h.inputs
      hsignatures)
  have houts := OutputRecord.mapM_toOutput_congr h.outputs label
  rw [toTx, toTx, hins, houts, h.version, h.lockTime]

end TxRecord

namespace Signing

/-! ## The check of a record -/

theorem checkInputs_sameClaim (executor : Executor) (tx : Tx) {inputs others : List InputRecord}
    (h : List.Forall₂ InputRecord.SameClaim inputs others) :
    ∀ index, checkInputs executor tx index inputs = checkInputs executor tx index others := by
  induction h with
  | nil => exact fun _ => rfl
  | @cons i j inputs others hij _ ih =>
    intro index
    simp only [checkInputs, hij.pubScript, InputRecord.spentValue_congr hij, ih]

theorem validate_congr (executor : Executor) {t u : TxRecord} (h : t.SameClaim u)
    (hsignatures : t.inputs.map InputRecord.signature = u.inputs.map InputRecord.signature) :
    t.validate executor = u.validate executor := by
  simp only [TxRecord.validate, TxRecord.toTx_congr h hsignatures,
    checkInputs_sameClaim executor _ h.inputs]

/-! ## No step before the check reports a failed validation -/

theorem spentValue_ne_validationFailed (input : InputRecord) (index : Nat) :
    input.spentValue index ≠ .error .validationFailed := by
  rw [InputRecord.spentValue]
  split
  · exact fun h => by cases h
  · exact fun h => by cases h

theorem toInput_ne_validationFailed (label : String) (i : InputRecord) :
    i.toInput label ≠ .error .validationFailed := by
  rw [InputRecord.toInput]
  split
  · exact fun h => by cases h
  split
  · exact fun h => by cases h
  · exact fun h => by cases h

theorem toOutput_ne_validationFailed (label : String) (o : OutputRecord) :
    o.toOutput label ≠ .error .validationFailed := by
  rw [OutputRecord.toOutput]
  split
  · exact fun h => by cases h
  split
  · exact fun h => by cases h
  · exact fun h => by cases h

theorem toTx_ne_validationFailed (label : String) (t : TxRecord) :
    t.toTx label ≠ .error .validationFailed := by
  have hins := mapM_ne_error (toInput_ne_validationFailed label) t.inputs
  have houts := mapM_ne_error (toOutput_ne_validationFailed label) t.outputs
  rw [TxRecord.toTx]
  cases hxs : t.inputs.mapM (InputRecord.toInput label) with
  | error e => exact fun h => hins (hxs.trans (congrArg _ (Except.error.inj h)))
  | ok xs =>
    cases hos : t.outputs.mapM (OutputRecord.toOutput label) with
    | error e => exact fun h => houts (hos.trans (congrArg _ (Except.error.inj h)))
    | ok os => exact fun h => by cases h

/-- A signing that comes to the check at the end. -/
def IsChecked (result : Except WalletError Unit) : Prop :=
  result = .ok () ∨ result = .error .validationFailed

theorem IsChecked.eq_validationFailed {e : WalletError} (h : IsChecked (.error e)) :
    e = .validationFailed := by
  cases h with
  | inl hok => cases hok
  | inr herror => exact Except.error.inj herror

/-! ## What signing again would change -/

theorem attempt_ext {a b : Attempt} (hrecord : a.record = b.record) (hresult : a.result = b.result) :
    a = b := by
  cases a
  cases b
  rw [Attempt.mk.injEq]
  exact ⟨hrecord, hresult⟩

theorem zipWith_resign_resign :
    ∀ {inputs : List InputRecord} {made : List (Option String)}, (∀ m ∈ made, m.isSome) →
      List.zipWith InputRecord.resign (List.zipWith InputRecord.resign inputs made) made =
        List.zipWith InputRecord.resign inputs made
  | [], _, _ => rfl
  | _ :: _, [], _ => rfl
  | i :: inputs, m :: made, h => by
    obtain ⟨hm, hrest⟩ := List.forall_mem_cons.mp h
    rw [List.zipWith_cons_cons, List.zipWith_cons_cons, i.resign_resign hm,
      zipWith_resign_resign hrest]

end Signing

end CashWallet
