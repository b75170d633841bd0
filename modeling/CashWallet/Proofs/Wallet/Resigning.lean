import CashWallet.Proofs.Wallet.Outcome
import CashWallet.Proofs.Wallet.SameClaim

/-!
# `CashWallet/Proofs/Wallet/Resigning.lean` — signing does not see what was signed before

A record may come with signatures, good or stale, and they travel as unlocking scripts in the
transaction over which the new ones are made. **They change nothing**: two records that ask for the
same to be signed (`TxRecord.SameClaim`) get the same signatures at the same inputs and the same
result, and where all inputs are signed also the same name and size (`Signing.sign_sameClaim`).

What is made at an input depends on its lock, on its amount and on a transaction that no signature
sees the scripts in, so the signatures of a whole run may be told from the transaction that it
started from (`Signing.inputs_signInputs`), and two runs make the same ones
(`Signing.signatures_sameClaim`). When they have been through all inputs nothing of the old scripts
is left, and the two records describe one and the same transaction (`TxRecord.toTx_congr`). Only the
check at the end reports a failed validation (`Signing.signInputs_ne_validationFailed`), so this
result too stands for a run through all inputs.

That signing twice is signing once is a case of this and not another argument: the record that is
left behind asks for the same as the one that came in (`Signing.sameClaim_signWith`), so signing it
makes the signatures that it already has (`Signing.signWith_signWith`). The executor may be another
one the second time, since it has a say in the result alone (`Signing.record_signWith_executor`).
-/

set_option autoImplicit false

namespace CashWallet

section

variable [KeySuite]

namespace Signing

/-! ## What a run makes -/

/-- The signatures that signing makes at the inputs from the given index on, all of them over one
and the same transaction: none where it passes an input over, and none from where it fails on. -/
def signatures (key : PrivateKey) (tx : Tx) : Nat → List InputRecord → List (Option String)
  | _, [] => []
  | index, input :: rest =>
    match openInput key tx index input with
    | .error _ => List.replicate (rest.length + 1) none
    | .ok none => none :: signatures key tx (index + 1) rest
    | .ok (some bytes) => some (Hex.encode bytes) :: signatures key tx (index + 1) rest

theorem length_signatures (key : PrivateKey) (tx : Tx) :
    ∀ (index : Nat) (inputs : List InputRecord),
      (signatures key tx index inputs).length = inputs.length
  | _, [] => rfl
  | index, input :: rest => by
    rw [signatures]
    cases openInput key tx index input with
    | error e => exact List.length_replicate
    | ok opened =>
      have hrest := length_signatures key tx (index + 1) rest
      cases opened with
      | none => exact congrArg (· + 1) hrest
      | some bytes => exact congrArg (· + 1) hrest

/-- **The inputs after a run** have the signatures that it made over the transaction it started
from, and those that it made none for are as they came. -/
theorem inputs_signInputs (key : PrivateKey) {start : Tx} :
    ∀ (inputs : List InputRecord) {index : Nat} {tx : Tx}, Tx.SameSpend tx start →
      (signInputs key tx index inputs).inputs =
        List.zipWith InputRecord.resign inputs (signatures key start index inputs)
  | [], _, _, _ => rfl
  | input :: rest, index, tx, hsame => by
    rw [signInputs, signatures, openInput_congr hsame]
    cases openInput key start index input with
    | error e => exact (InputRecord.zipWith_resign_none (input :: rest)).symm
    | ok opened =>
      cases opened with
      | none => exact congrArg (input :: ·) (inputs_signInputs key rest hsame)
      | some bytes =>
        exact congrArg (_ :: ·) (inputs_signInputs key rest (sameSpend_unlocked hsame index ⟨bytes⟩))

/-- A row that was signed through has a signature at every input. -/
theorem isSome_of_mem_signatures (key : PrivateKey) {start : Tx} :
    ∀ {inputs : List InputRecord} {index : Nat} {tx : Tx}, Tx.SameSpend tx start →
      (signInputs key tx index inputs).result = .ok true →
      ∀ m ∈ signatures key start index inputs, m.isSome
  | [], _, _, _, _ => fun _ hm => absurd hm List.not_mem_nil
  | input :: rest, index, tx, hsame, hresult => by
    rw [signInputs, openInput_congr hsame] at hresult
    rw [signatures]
    cases hopen : openInput key start index input with
    | error e =>
      rw [hopen] at hresult
      cases hresult
    | ok opened =>
      cases opened with
      | none =>
        simp only [hopen] at hresult
        exact absurd hresult (map_false_ne_ok_true _)
      | some bytes =>
        simp only [hopen] at hresult
        exact List.forall_mem_cons.mpr
          ⟨rfl, isSome_of_mem_signatures key (sameSpend_unlocked hsame index ⟨bytes⟩) hresult⟩

/-! ## Two runs side by side -/

theorem openInput_sameClaim {i j : InputRecord} (h : i.SameClaim j) {s t : Tx}
    (hsame : Tx.SameSpend s t) (key : PrivateKey) (index : Nat) :
    openInput key s index i = openInput key t index j := by
  rw [openInput_congr hsame]
  simp only [openInput, h.pubScript, InputRecord.spentValue_congr h]

/-- **The signatures do not depend on what was there before**: neither on the signatures of the
inputs nor on the unlocking scripts of the transaction. -/
theorem signatures_sameClaim (key : PrivateKey) {inputs others : List InputRecord}
    (h : List.Forall₂ InputRecord.SameClaim inputs others) {s t : Tx} (hsame : Tx.SameSpend s t) :
    ∀ index, signatures key s index inputs = signatures key t index others := by
  induction h with
  | nil => exact fun _ => rfl
  | @cons i j inputs others hij hrest ih =>
    intro index
    rw [signatures, signatures, openInput_sameClaim hij hsame, hrest.length_eq, ih]

/-- Neither does how far a run comes. -/
theorem result_signInputs_sameClaim (key : PrivateKey) {inputs others : List InputRecord}
    (h : List.Forall₂ InputRecord.SameClaim inputs others) :
    ∀ {index : Nat} {s t : Tx}, Tx.SameSpend s t →
      (signInputs key s index inputs).result = (signInputs key t index others).result := by
  induction h with
  | nil => exact fun _ => rfl
  | @cons i j inputs others hij _ ih =>
    intro index s t hsame
    rw [signInputs, signInputs, openInput_sameClaim hij hsame]
    cases openInput key t index j with
    | error e => rfl
    | ok opened =>
      cases opened with
      | none => exact congrArg (Except.map fun _ => false) (ih hsame)
      | some bytes =>
        exact ih ((sameSpend_unlocked hsame index ⟨bytes⟩).trans
          (sameSpend_unlocked (.refl t) index ⟨bytes⟩).symm)

/-! ## Only the check at the end reports a failed validation -/

theorem openInput_ne_validationFailed (key : PrivateKey) (tx : Tx) (index : Nat)
    (input : InputRecord) : openInput key tx index input ≠ .error .validationFailed := by
  have hvalue := spentValue_ne_validationFailed input index
  unfold openInput
  intro h
  -- Every way to fail has its own name; only that of the amount comes from outside.
  split at h
  · cases h
  split at h
  · cases h
  split at h
  · cases h
  split at h
  · rename_i e he
    obtain rfl := Except.error.inj h
    exact hvalue he
  split at h
  · cases h
  split at h
  · cases h
  split at h
  · cases h
  · cases h

theorem signInputs_ne_validationFailed (key : PrivateKey) :
    ∀ (inputs : List InputRecord) (tx : Tx) (index : Nat),
      (signInputs key tx index inputs).result ≠ .error .validationFailed
  | [], _, _ => fun h => by cases h
  | input :: rest, tx, index => by
    rw [signInputs]
    cases hopen : openInput key tx index input with
    | error e =>
      exact fun h => openInput_ne_validationFailed key tx index input
        (hopen.trans (congrArg _ (Except.error.inj h)))
    | ok opened =>
      cases opened with
      | none =>
        intro h
        have hrest := signInputs_ne_validationFailed key rest tx (index + 1)
        cases hresult : (signInputs key tx (index + 1) rest).result with
        | error e =>
          simp only [hresult] at h
          exact hrest (hresult.trans (congrArg _ (Except.error.inj h)))
        | ok all =>
          simp only [hresult] at h
          cases h
      | some bytes => exact signInputs_ne_validationFailed key rest _ (index + 1)

theorem signingKey_ne_validationFailed (mnemonic : String) (config : WalletConfig) :
    Wallet.signingKey mnemonic config ≠ .error .validationFailed := by
  rw [Wallet.signingKey]
  split
  · exact fun h => by cases h
  split
  · exact fun h => by cases h
  · exact fun h => by cases h

/-! ## Records -/

/-- The signatures that signing a record with a key makes, input by input. -/
def madeWith (key : PrivateKey) (label : String) (t : TxRecord) : List (Option String) :=
  match t.toTx label with
  | .error _ => List.replicate t.inputs.length none
  | .ok tx => signatures key tx 0 t.inputs

theorem length_madeWith (key : PrivateKey) (label : String) (t : TxRecord) :
    (madeWith key label t).length = t.inputs.length := by
  unfold madeWith
  cases t.toTx label with
  | error e => exact List.length_replicate
  | ok tx => exact length_signatures key tx 0 t.inputs

theorem madeWith_sameClaim (key : PrivateKey) (label : String) {t u : TxRecord} (h : t.SameClaim u)
    (ht : t.IsLegible) (hu : u.IsLegible) : madeWith key label t = madeWith key label u := by
  unfold madeWith
  have hsame := TxRecord.toTx_sameClaim h ht hu label
  generalize t.toTx label = x at hsame
  generalize u.toTx label = y at hsame
  cases hsame with
  | error e => exact congrArg (List.replicate · none) h.inputs.length_eq
  | ok hspend => exact signatures_sameClaim key h.inputs hspend 0

/-- **Signing changes a record** in three places: its inputs have the signatures that are made, and
it may have another name and another size. -/
theorem record_signWith (executor : Executor) (key : PrivateKey) (label : String) (t : TxRecord) :
    (signWith executor key label t).record =
      { t with
        inputs := List.zipWith InputRecord.resign t.inputs (madeWith key label t)
        hash := (signWith executor key label t).record.hash
        size := (signWith executor key label t).record.size } := by
  unfold signWith madeWith
  cases t.toTx label with
  | error e =>
    simp only [InputRecord.zipWith_resign_none]
  | ok tx =>
    simp only [← inputs_signInputs key t.inputs (.refl tx)]
    cases (signInputs key tx 0 t.inputs).result with
    | error e => rfl
    | ok all =>
      cases all with
      | false => rfl
      | true => rfl

/-- The executor has a say in the result alone. -/
theorem record_signWith_executor (executor other : Executor) (key : PrivateKey) (label : String)
    (t : TxRecord) :
    (signWith executor key label t).record = (signWith other key label t).record := by
  unfold signWith
  cases t.toTx label with
  | error e => rfl
  | ok tx =>
    simp only
    cases (signInputs key tx 0 t.inputs).result with
    | error e => rfl
    | ok all =>
      cases all with
      | false => rfl
      | true => rfl

/-- Behind runs through all inputs, two records that ask for the same still do, and have the same
signatures. -/
theorem sameClaim_of_signInputs (key : PrivateKey) {t u : TxRecord} (h : t.SameClaim u)
    {start other : Tx} (hspend : Tx.SameSpend start other)
    (hresult : (signInputs key start 0 t.inputs).result = .ok true) :
    TxRecord.SameClaim { t with inputs := (signInputs key start 0 t.inputs).inputs }
        { u with inputs := (signInputs key other 0 u.inputs).inputs } ∧
      (signInputs key start 0 t.inputs).inputs.map InputRecord.signature =
        (signInputs key other 0 u.inputs).inputs.map InputRecord.signature := by
  have hmade := isSome_of_mem_signatures key (.refl start) hresult
  rw [inputs_signInputs key t.inputs (.refl start), inputs_signInputs key u.inputs (.refl other),
    ← signatures_sameClaim key h.inputs hspend]
  exact ⟨⟨h.version, h.lockTime, InputRecord.forall₂_sameClaim_resign h.inputs rfl, h.outputs⟩,
    InputRecord.map_signature_resign h.inputs.length_eq hmade⟩

/-- **Two records that ask for the same** come to the same result, and behind runs through all
inputs to the same name and size. -/
theorem signWith_sameClaim (executor : Executor) (key : PrivateKey) (label : String)
    {t u : TxRecord} (h : t.SameClaim u) (ht : t.IsLegible) (hu : u.IsLegible) :
    (signWith executor key label t).result = (signWith executor key label u).result ∧
      (IsChecked (signWith executor key label t).result →
        (∀ m ∈ madeWith key label t, m.isSome) ∧
          (signWith executor key label t).record.hash = (signWith executor key label u).record.hash ∧
          (signWith executor key label t).record.size =
            (signWith executor key label u).record.size) := by
  have hsame := TxRecord.toTx_sameClaim h ht hu label
  have htx := toTx_ne_validationFailed label t
  unfold signWith madeWith
  cases hstart : t.toTx label with
  | error e =>
    rw [hstart] at hsame htx
    generalize u.toTx label = y at hsame
    cases hsame
    -- A record that describes nothing fails without a check, and its error is not that of one.
    exact ⟨rfl, fun hchecked => absurd (congrArg _ hchecked.eq_validationFailed) htx⟩
  | ok start =>
    cases hother : u.toTx label with
    | error e =>
      rw [hstart, hother] at hsame
      cases hsame
    | ok other =>
      rw [hstart, hother] at hsame
      obtain ⟨⟩ | hspend := hsame
      have hrun := signInputs_ne_validationFailed key t.inputs start 0
      simp only [← result_signInputs_sameClaim key h.inputs hspend]
      cases hresult : (signInputs key start 0 t.inputs).result with
      | error e =>
        rw [hresult] at hrun
        exact ⟨rfl, fun hchecked => absurd (congrArg _ hchecked.eq_validationFailed) hrun⟩
      | ok all =>
        cases all with
        | false =>
          refine ⟨rfl, fun hchecked => ?_⟩
          -- Signing in part ends without a check, too.
          cases hchecked.eq_validationFailed
        | true =>
          obtain ⟨hclaim, hsignatures⟩ := sameClaim_of_signInputs key h hspend hresult
          have hfinal := toTx_signInputs key t.inputs [] hstart
          have hfinal' := toTx_signInputs key u.inputs [] hother
          rw [List.nil_append, List.length_nil] at hfinal hfinal'
          -- Every old script has been replaced, so the two runs end at one transaction, and its
          -- name and size are the same because it is.
          have heq : (signInputs key start 0 t.inputs).tx = (signInputs key other 0 u.inputs).tx :=
            Except.ok.inj (hfinal.symm.trans
              ((TxRecord.toTx_congr hclaim hsignatures label).trans hfinal'))
          rw [heq]
          refine ⟨validate_congr executor ⟨hclaim.version, hclaim.lockTime, hclaim.inputs,
            hclaim.outputs⟩ hsignatures, fun _ => ⟨?_, rfl, rfl⟩⟩
          exact isSome_of_mem_signatures key (.refl start) hresult

/-! ## Signing again -/

/-- Signing asks for what it was asked. -/
theorem sameClaim_signWith (executor : Executor) (key : PrivateKey) (label : String) (t : TxRecord) :
    t.SameClaim (signWith executor key label t).record := by
  rw [record_signWith]
  refine ⟨rfl, rfl, ?_, List.forall₂_same.mpr fun _ _ => ⟨rfl, rfl⟩⟩
  have hlen : (List.replicate t.inputs.length (none : Option String)).length =
      (madeWith key label t).length := by
    rw [List.length_replicate, length_madeWith]
  have hrow := InputRecord.forall₂_sameClaim_resign (TxRecord.SameClaim.refl t).inputs hlen
  rwa [InputRecord.zipWith_resign_none] at hrow

/-- **Signing again** what was signed changes nothing. -/
theorem signWith_signWith {executor : Executor} {key : PrivateKey} {label : String} {t : TxRecord}
    (h : (signWith executor key label t).result = .ok ()) :
    signWith executor key label (signWith executor key label t).record =
      signWith executor key label t := by
  obtain ⟨start, final, -, hstart, hfinal, -⟩ := signWith_eq_ok h
  have hclaim := sameClaim_signWith executor key label t
  have ht := TxRecord.isLegible_of_toTx hstart
  have hr := TxRecord.isLegible_of_toTx hfinal
  have hmade := madeWith_sameClaim key label hclaim ht hr
  obtain ⟨hresult, hchecked⟩ := signWith_sameClaim executor key label hclaim ht hr
  obtain ⟨hsome, hhash, hsize⟩ := hchecked (.inl h)
  refine attempt_ext ?_ hresult.symm
  have hinputs : (signWith executor key label t).record.inputs =
      List.zipWith InputRecord.resign t.inputs (madeWith key label t) :=
    congrArg TxRecord.inputs (record_signWith executor key label t)
  rw [record_signWith executor key label (signWith executor key label t).record, ← hhash, ← hsize,
    ← hmade, hinputs, zipWith_resign_resign hsome, ← hinputs]

/-! ## Signing -/

/-- The signatures that signing a record with the key of a phrase makes, input by input. -/
def made (mnemonic : String) (config : WalletConfig) (t : TxRecord) : List (Option String) :=
  match Wallet.signingKey mnemonic config with
  | .error _ => List.replicate t.inputs.length none
  | .ok key => madeWith key config.network.label t

/-- **Signing does not depend on what was there before.** Let two records ask for the same, and let
the signatures that they come with be digits. Then signing them has the same result and makes the
same signatures at the same inputs, and all other inputs are as they came. When it succeeds, or
fails in the check at the end, all inputs have new signatures and the records have the same name and
the same size. And signing again what was signed without failure has no failure and changes nothing,
whoever checks it. -/
theorem sign_sameClaim (executor : Executor) (mnemonic : String) (config : WalletConfig) :
    (∀ t u : TxRecord, t.SameClaim u → t.IsLegible → u.IsLegible →
        (sign executor mnemonic config t).result = (sign executor mnemonic config u).result ∧
          made mnemonic config t = made mnemonic config u ∧
          (sign executor mnemonic config t).record.inputs =
            List.zipWith InputRecord.resign t.inputs (made mnemonic config t) ∧
          (sign executor mnemonic config u).record.inputs =
            List.zipWith InputRecord.resign u.inputs (made mnemonic config u) ∧
          (IsChecked (sign executor mnemonic config t).result →
            (∀ m ∈ made mnemonic config t, m.isSome) ∧
              (sign executor mnemonic config t).record.hash =
                (sign executor mnemonic config u).record.hash ∧
              (sign executor mnemonic config t).record.size =
                (sign executor mnemonic config u).record.size)) ∧
      ∀ t : TxRecord, (sign executor mnemonic config t).result = .ok () →
        sign executor mnemonic config (sign executor mnemonic config t).record =
            sign executor mnemonic config t ∧
          ∀ other : Executor,
            (sign other mnemonic config (sign executor mnemonic config t).record).record =
              (sign executor mnemonic config t).record := by
  have hne := signingKey_ne_validationFailed mnemonic config
  unfold sign made
  cases hkey : Wallet.signingKey mnemonic config with
  | error e =>
    rw [hkey] at hne
    refine ⟨fun t u h _ _ => ⟨rfl, congrArg (List.replicate · none) h.inputs.length_eq,
      (InputRecord.zipWith_resign_none t.inputs).symm,
      (InputRecord.zipWith_resign_none u.inputs).symm,
      fun hchecked => absurd (congrArg _ hchecked.eq_validationFailed) hne⟩, fun t h => ?_⟩
    cases h
  | ok key =>
    refine ⟨fun t u h ht hu => ?_, fun t h => ⟨signWith_signWith h, fun other => ?_⟩⟩
    · obtain ⟨hresult, hchecked⟩ := signWith_sameClaim executor key config.network.label h ht hu
      exact ⟨hresult, madeWith_sameClaim key _ h ht hu,
        congrArg TxRecord.inputs (record_signWith executor key _ t),
        congrArg TxRecord.inputs (record_signWith executor key _ u), hchecked⟩
    · rw [record_signWith_executor other executor]
      exact congrArg Attempt.record (signWith_signWith h)

end Signing

end

namespace Signing

open Wallet (sampleSuite samplePhrase)

/-- The payment to the sample wallet with a script for a signature that opens nothing. -/
def stalePayment : TxRecord :=
  { samplePayment with inputs := samplePayment.inputs.map ({ · with signature := "51" }) }

theorem isLegible_samplePayment : samplePayment.IsLegible := by
  intro i hi
  obtain rfl := List.mem_singleton.mp hi
  exact ⟨⟨[]⟩, rfl⟩

theorem isLegible_stalePayment : stalePayment.IsLegible := by
  intro i hi
  obtain rfl := List.mem_singleton.mp hi
  exact ⟨⟨[0x51]⟩, by decide +kernel⟩

/-- The stale script is replaced by the signature that is made without it, and signing once more
changes nothing. -/
theorem sign_sameClaim_stalePayment :
    samplePayment.SameClaim stalePayment ∧ samplePayment.inputs ≠ stalePayment.inputs ∧
      (@sign sampleSuite (@Executor.standard sampleSuite) samplePhrase .standard
        stalePayment).result = .ok () ∧
      (@sign sampleSuite (@Executor.standard sampleSuite) samplePhrase .standard
          samplePayment).record.inputs.map InputRecord.signature =
        (@sign sampleSuite (@Executor.standard sampleSuite) samplePhrase .standard
          stalePayment).record.inputs.map InputRecord.signature ∧
      @sign sampleSuite (@Executor.standard sampleSuite) samplePhrase .standard
          (@sign sampleSuite (@Executor.standard sampleSuite) samplePhrase .standard
            stalePayment).record =
        @sign sampleSuite (@Executor.standard sampleSuite) samplePhrase .standard stalePayment := by
  have hclaim : samplePayment.SameClaim stalePayment :=
    ⟨rfl, rfl, .cons ⟨rfl, rfl, rfl, rfl, rfl⟩ .nil, .nil⟩
  obtain ⟨htwo, hagain⟩ := @sign_sameClaim sampleSuite (@Executor.standard sampleSuite) samplePhrase
    .standard
  obtain ⟨hresult, hmade, hinputs, hothers, hchecked⟩ :=
    htwo samplePayment stalePayment hclaim isLegible_samplePayment isLegible_stalePayment
  obtain ⟨hsome, -⟩ := hchecked (.inl result_samplePayment)
  have hstale := hresult.symm.trans result_samplePayment
  refine ⟨hclaim, fun h => ?_, hstale, ?_, (hagain stalePayment hstale).1⟩
  · have hsignature : "" = "51" := congrArg InputRecord.signature (List.cons.inj h).1
    exact absurd hsignature (by decide)
  · rw [hinputs, hothers, ← hmade]
    exact InputRecord.map_signature_resign hclaim.inputs.length_eq hsome

end Signing

end CashWallet
