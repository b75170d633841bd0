import CashWallet.Proofs.Wallet.Outcome

/-!
# `CashWallet/Proofs/Wallet/Failure.lean` — what a failed signing leaves behind

Signing goes through the inputs in order and changes the record as it goes, so where it fails
decides what the record looks like afterwards. **An input halts signing, is passed over, or is
signed**, and which of the three is told by its lock and its amount alone (`InputRecord.Halts`,
`InputRecord.IsSignable`). That an input is signed whenever it should be needs two things beside:
the transaction has as many inputs as the record, and the key signs (`PrivateKey.SignsDigests`).

Everything else is one law of the run (`signInputs_append`): a row in front that nothing halts is
worked through, and what comes behind it is signed as if it stood alone. With an input that halts
signing behind the row, the run stops there; with nothing behind it, the run is over. The ways in
which signing can end are read off these two (`Signing.record_of_failure`).

An input that was passed over is not a failure where it stands: the run goes on and signs what comes
behind it. It is one at the end, where the record counts as partly signed and the check is not made.
So the name and the size of a record are touched only when every input has its signature.
-/

set_option autoImplicit false

namespace CashWallet

/-! ## Three kinds of inputs -/

namespace InputRecord

/-- Signing cannot go past the input, and this is how it fails there. -/
inductive Halts (index : Nat) (input : InputRecord) : WalletError → Prop
  | empty (hscript : input.pubScript = "") : Halts index input (.emptyScript index)
  | notHex {e : HexError} (hscript : Hex.decode input.pubScript = .error e) :
    Halts index input (.script (.notHex e))
  | negative (hlock : input.IsSignable) (hvalue : input.value < 0) :
    Halts index input (.invalidTransaction (.negativeSpent index input.value))

/-- Signing can go past the input, wherever it stands. -/
def IsPassable (input : InputRecord) : Prop :=
  ∀ index e, ¬ input.Halts index e

/-- A lock that can be read, and is one at all, halts signing only with a negative amount. -/
theorem isPassable_of_parse {input : InputRecord} {locking : Script}
    (hparse : Script.parse input.pubScript = .ok locking) (hne : locking.bytes ≠ [])
    (hvalue : 0 ≤ input.value) : input.IsPassable := by
  intro index e h
  cases h with
  | empty hscript =>
    rw [hscript] at hparse
    obtain rfl := Except.ok.inj hparse
    exact hne rfl
  | notHex hscript =>
    rw [Script.parse, hscript] at hparse
    cases hparse
  | negative _ hnegative => exact Int64.not_lt.mpr hvalue hnegative

theorem IsPassable.exists_parse {input : InputRecord} (h : input.IsPassable) :
    ∃ locking, Script.parse input.pubScript = .ok locking := by
  cases hscript : Hex.decode input.pubScript with
  | error e => exact absurd (.notHex hscript) (h 0 _)
  | ok b => exact ⟨⟨b⟩, by rw [Script.parse, hscript]⟩

theorem IsPassable.value_nonneg {input : InputRecord} (h : input.IsPassable)
    (hlock : input.IsSignable) : 0 ≤ input.value :=
  Int64.not_lt.mp fun hvalue => h 0 _ (.negative hlock hvalue)

end InputRecord

namespace Signing

/-- A check of inputs that nothing halts fails in one way only. -/
theorem checkInputs_eq {executor : Executor} {tx : Tx} :
    ∀ {inputs : List InputRecord} {index : Nat},
      (∀ input ∈ inputs, (∃ locking, Script.parse input.pubScript = .ok locking) ∧
        0 ≤ input.value) →
      checkInputs executor tx index inputs = .ok () ∨
        checkInputs executor tx index inputs = .error .validationFailed
  | [], index, _ => .inl rfl
  | input :: rest, index, h => by
    obtain ⟨⟨locking, hparse⟩, hvalue⟩ := h input List.mem_cons_self
    simp only [checkInputs, hparse, InputRecord.spentValue_of_nonneg hvalue]
    cases executor locking tx.spendContext index input.value.toUInt64 .standard with
    | error e => exact .inr rfl
    | ok accepted => exact checkInputs_eq fun i hi => h i (List.mem_cons_of_mem input hi)

end Signing

section

variable [KeySuite]

namespace Signing

/-! ## One input -/

/-- **An input that halts signing** fails to be opened, whatever the key and the transaction. -/
theorem openInput_of_halts {index : Nat} {input : InputRecord} {e : WalletError}
    (h : input.Halts index e) (key : PrivateKey) (tx : Tx) :
    openInput key tx index input = .error e := by
  unfold openInput
  cases h with
  | empty hscript => rw [if_pos (by rw [hscript]; rfl)]
  | notHex hscript =>
    have hne : input.pubScript ≠ "" := by
      intro hempty
      rw [hempty] at hscript
      cases hscript
    simp only [InputRecord.isEmpty_of_ne hne, Bool.false_eq_true, if_false, Script.parse, hscript]
  | negative hlock hvalue =>
    have hempty := InputRecord.isEmpty_of_ne hlock.ne_empty
    obtain ⟨locking, hparse, hclass⟩ := hlock
    simp only [hempty, Bool.false_eq_true, if_false, hparse, isSignable_iff.mpr hclass, Bool.not_true,
      InputRecord.spentValue, if_pos hvalue]

/-- **An input with another lock** is passed over. -/
theorem openInput_of_not_isSignable {input : InputRecord} (h : input.IsPassable)
    (hlock : ¬ input.IsSignable) (key : PrivateKey) (tx : Tx) (index : Nat) :
    openInput key tx index input = .ok none := by
  have hempty := InputRecord.isEmpty_of_ne fun hscript => h 0 _ (.empty hscript)
  obtain ⟨locking, hparse⟩ := h.exists_parse
  have hclass : isSignable locking.classify = false := by
    refine Bool.eq_false_iff.mpr fun hclass => hlock ⟨locking, hparse, isSignable_iff.mp hclass⟩
  simp only [openInput, hempty, Bool.false_eq_true, if_false, hparse, hclass, Bool.not_false, if_true]

/-! ## Many inputs -/

/-- The second row is the first as signing leaves it when it has gone through it, from the given
index on: the inputs that the key opens have their new signatures, all of them over one and the same
transaction, and the others are as they came. -/
inductive IsDoneRow (key : PrivateKey) (tx : Tx) : Nat → List InputRecord → List InputRecord → Prop
  | nil (index : Nat) : IsDoneRow key tx index [] []
  | signed {index : Nat} {input after : InputRecord} {rest done : List InputRecord}
      (hsigned : IsSigned key tx index input after) (hrest : IsDoneRow key tx (index + 1) rest done) :
      IsDoneRow key tx index (input :: rest) (after :: done)
  | passed {index : Nat} {input : InputRecord} {rest done : List InputRecord}
      (hlock : ¬ input.IsSignable) (hrest : IsDoneRow key tx (index + 1) rest done) :
      IsDoneRow key tx index (input :: rest) (input :: done)

/-- What a run comes to when some of the inputs it went through before were passed over. -/
def afterPassing (result : Except WalletError Bool) : Except WalletError Bool :=
  result.map fun _ => false

/-- **A row that nothing halts is worked through**, and what stands behind it is signed as if it
stood alone, over a transaction that spends and pays the same. -/
theorem signInputs_append {key : PrivateKey} (htrust : key.SignsDigests) {start : Tx}
    (rest : List InputRecord) :
    ∀ {row : List InputRecord} {index : Nat} {tx : Tx}, Tx.SameSpend tx start →
      (∀ input ∈ row, input.IsPassable) → index + row.length ≤ start.inputs.length →
      ∃ done tx', IsDoneRow key start index row done ∧
        (signInputs key tx index (row ++ rest)).inputs =
          done ++ (signInputs key tx' (index + row.length) rest).inputs ∧
        ((∀ input ∈ row, input.IsSignable) →
          (signInputs key tx index (row ++ rest)).result =
            (signInputs key tx' (index + row.length) rest).result) ∧
        ((∃ input ∈ row, ¬ input.IsSignable) →
          (signInputs key tx index (row ++ rest)).result =
            afterPassing (signInputs key tx' (index + row.length) rest).result)
  | [], index, tx, _, _, _ => by
    refine ⟨[], tx, .nil index, rfl, fun _ => rfl, ?_⟩
    rintro ⟨_, hnone, _⟩
    exact absurd hnone List.not_mem_nil
  | input :: row, index, tx, hsame, hpass, hlen => by
    have hinput := hpass input List.mem_cons_self
    have hrow : ∀ i ∈ row, i.IsPassable := fun i hi => hpass i (List.mem_cons_of_mem input hi)
    rw [List.length_cons] at hlen
    have hindex : index + 1 + row.length = index + (input :: row).length := by
      rw [List.length_cons]
      omega
    rw [List.cons_append, signInputs]
    by_cases hlock : input.IsSignable
    · obtain ⟨bytes, hopen⟩ := openInput_of_isSignable htrust
        (show index < start.inputs.length by omega) hlock (hinput.value_nonneg hlock)
      have hsigned := isSigned_of_openInput hopen
      obtain ⟨done, tx', hdone, hinputs, hall, hsome⟩ := signInputs_append htrust rest
        (sameSpend_unlocked hsame index ⟨bytes⟩) hrow (show index + 1 + row.length ≤ _ by omega)
      rw [hindex] at hinputs hall hsome
      rw [openInput_congr hsame, hopen]
      refine ⟨_ :: done, tx', .signed hsigned hdone, congrArg _ hinputs, fun h => hall fun i hi =>
        h i (List.mem_cons_of_mem input hi), ?_⟩
      rintro ⟨i, hi, hpassed⟩
      cases List.mem_cons.mp hi with
      | inl heq => exact absurd (heq ▸ hlock) hpassed
      | inr hrest => exact hsome ⟨i, hrest, hpassed⟩
    · obtain ⟨done, tx', hdone, hinputs, hall, hsome⟩ := signInputs_append htrust rest hsame hrow
        (show index + 1 + row.length ≤ _ by omega)
      rw [hindex] at hinputs hall hsome
      rw [openInput_of_not_isSignable hinput hlock]
      refine ⟨input :: done, tx', .passed hlock hdone, congrArg _ hinputs,
        fun h => absurd (h input List.mem_cons_self) hlock, fun _ => ?_⟩
      -- The rest of the row may have inputs that are passed over too, which changes nothing.
      by_cases hrest : ∀ i ∈ row, i.IsSignable
      · exact congrArg afterPassing (hall hrest)
      · simp only [not_forall, exists_prop] at hrest
        simp only [hsome hrest, afterPassing]
        cases (signInputs key tx' (index + (input :: row).length) rest).result with
        | error e => rfl
        | ok all => rfl

/-- Signing changes neither locks nor amounts. -/
theorem IsDoneRow.exists_of_mem {key : PrivateKey} {tx : Tx} {index : Nat}
    {row done : List InputRecord} (h : IsDoneRow key tx index row done) :
    ∀ after ∈ done, ∃ input ∈ row, after.pubScript = input.pubScript ∧ after.value = input.value := by
  induction h with
  | nil => exact fun after h => absurd h List.not_mem_nil
  | @signed index input signed rest done hsigned _ ih =>
    intro after hafter
    cases List.mem_cons.mp hafter with
    | inl heq =>
      obtain ⟨locking, digest, signature, bytes, -, -, -, -, -, rfl⟩ := hsigned
      exact ⟨input, List.mem_cons_self, by rw [heq], by rw [heq]⟩
    | inr hrest =>
      obtain ⟨i, hi, hsame⟩ := ih after hrest
      exact ⟨i, List.mem_cons_of_mem input hi, hsame⟩
  | @passed index input rest done _ _ ih =>
    intro after hafter
    cases List.mem_cons.mp hafter with
    | inl heq => exact ⟨input, List.mem_cons_self, by rw [heq], by rw [heq]⟩
    | inr hrest =>
      obtain ⟨i, hi, hsame⟩ := ih after hrest
      exact ⟨i, List.mem_cons_of_mem input hi, hsame⟩

/-- The first input that halts signing is where it stops. -/
theorem signInputs_of_halts {key : PrivateKey} (htrust : key.SignsDigests) {start : Tx}
    {row : List InputRecord} {input : InputRecord} {e : WalletError}
    (hpass : ∀ i ∈ row, i.IsPassable) (hhalt : input.Halts row.length e)
    (hlen : row.length ≤ start.inputs.length) (rest : List InputRecord) :
    ∃ done, IsDoneRow key start 0 row done ∧
      (signInputs key start 0 (row ++ input :: rest)).inputs = done ++ input :: rest ∧
      (signInputs key start 0 (row ++ input :: rest)).result = .error e := by
  obtain ⟨done, tx, hdone, hinputs, hall, hsome⟩ := signInputs_append htrust (input :: rest)
    (.refl start) hpass (show 0 + row.length ≤ _ by omega)
  rw [Nat.zero_add] at hinputs hall hsome
  rw [signInputs, openInput_of_halts hhalt] at hinputs hall hsome
  refine ⟨done, hdone, hinputs, ?_⟩
  by_cases h : ∀ i ∈ row, i.IsSignable
  · exact hall h
  · simp only [not_forall, exists_prop] at h
    exact hsome h

/-- What signing comes to when every input is signed. -/
theorem signWith_of_isSignable {executor : Executor} {key : PrivateKey} (htrust : key.SignsDigests)
    {label : String} {t : TxRecord} {start : Tx} (hstart : t.toTx label = .ok start)
    (hpass : ∀ input ∈ t.inputs, input.IsPassable)
    (hlock : ∀ input ∈ t.inputs, input.IsSignable) :
    ∃ done final, IsDoneRow key start 0 t.inputs done ∧
      (signWith executor key label t).record.toTx label = .ok final ∧
      (signWith executor key label t).record =
        { t with inputs := done, hash := final.hash.display, size := Int32.ofNat final.size } ∧
      ((signWith executor key label t).result = .ok () ∨
        (signWith executor key label t).result = .error .validationFailed) := by
  have hlen := TxRecord.length_inputs_of_toTx hstart
  obtain ⟨done, tx, hdone, hinputs, hall, -⟩ := signInputs_append htrust [] (.refl start) hpass
    (show 0 + t.inputs.length ≤ _ by omega)
  rw [List.append_nil, signInputs, List.append_nil] at hinputs
  have hresult := hall hlock
  rw [List.append_nil, signInputs] at hresult
  have hrow := isSignedRow_of_signInputs (.refl start) hresult
  have hfinal := toTx_signInputs key t.inputs [] hstart
  simp only [signWith, hstart, hresult]
  rw [List.nil_append, List.length_nil] at hfinal
  generalize (signInputs key start 0 t.inputs).tx = final at hfinal ⊢
  rw [hinputs] at hrow hfinal ⊢
  refine ⟨done, final, hdone, hfinal, rfl, ?_⟩
  obtain ⟨checked, hchecked, -, -⟩ := @TxRecord.toTx_resigned label t
    { t with inputs := done, hash := final.hash.display, size := Int32.ofNat final.size }
    start hstart rfl rfl rfl hrow.isResigned mainLabel
  simp only [TxRecord.validate, hchecked]
  refine checkInputs_eq fun after hafter => ?_
  obtain ⟨input, hinput, hscript, hvalue⟩ := hdone.exists_of_mem after hafter
  rw [hscript, hvalue]
  exact ⟨(hpass input hinput).exists_parse, (hpass input hinput).value_nonneg (hlock input hinput)⟩

/-- **What a failed signing leaves behind.** Without a key, and without a transaction that the
record describes, signing fails as these do and the record is as it came. Otherwise the first input
that halts signing gives the failure: the inputs before it are worked through, and it, all inputs
behind it and all else in the record are as they came. When no input halts signing and one has
another lock, the record counts as partly signed: all inputs are worked through, and all else is as
it came. When no input halts signing and the key opens all of them, signing succeeds or the check at
the end fails, and either way the record has all its signatures and the name and the size of what it
describes. -/
theorem record_of_failure {executor : Executor} {mnemonic : String} {config : WalletConfig}
    (t : TxRecord)
    (htrust : ∀ key, Wallet.signingKey mnemonic config = .ok key → key.SignsDigests) :
    (∀ e, Wallet.signingKey mnemonic config = .error e →
        sign executor mnemonic config t = ⟨t, .error e⟩) ∧
      ∀ key, Wallet.signingKey mnemonic config = .ok key →
        (∀ e, t.toTx config.network.label = .error e →
            sign executor mnemonic config t = ⟨t, .error e⟩) ∧
          ∀ start, t.toTx config.network.label = .ok start →
            (∀ row input rest e, t.inputs = row ++ input :: rest →
                (∀ i ∈ row, i.IsPassable) → input.Halts row.length e →
                ∃ done, IsDoneRow key start 0 row done ∧
                  sign executor mnemonic config t =
                    ⟨{ t with inputs := done ++ input :: rest }, .error e⟩) ∧
              ((∀ i ∈ t.inputs, i.IsPassable) →
                ((∃ i ∈ t.inputs, ¬ i.IsSignable) →
                    ∃ done, IsDoneRow key start 0 t.inputs done ∧
                      sign executor mnemonic config t =
                        ⟨{ t with inputs := done }, .error .partiallySigned⟩) ∧
                  ((∀ i ∈ t.inputs, i.IsSignable) →
                    ∃ done final, IsDoneRow key start 0 t.inputs done ∧
                      (sign executor mnemonic config t).record.toTx config.network.label =
                        .ok final ∧
                      (sign executor mnemonic config t).record =
                        { t with
                          inputs := done
                          hash := final.hash.display
                          size := Int32.ofNat final.size } ∧
                      ((sign executor mnemonic config t).result = .ok () ∨
                        (sign executor mnemonic config t).result = .error .validationFailed))) := by
  refine ⟨fun e hkey => by rw [sign, hkey], fun key hkey => ?_⟩
  have hkeyTrust := htrust key hkey
  rw [sign_of_signingKey hkey]
  refine ⟨fun e htx => by rw [signWith, htx], fun start hstart => ⟨?_, fun hpass => ⟨?_, ?_⟩⟩⟩
  · intro row input rest e hinputs hpass hhalt
    have hlen := TxRecord.length_inputs_of_toTx hstart
    rw [hinputs, List.length_append] at hlen
    obtain ⟨done, hdone, hafter, hresult⟩ := signInputs_of_halts hkeyTrust hpass hhalt
      (show row.length ≤ start.inputs.length by omega) rest
    rw [← hinputs] at hafter hresult
    refine ⟨done, hdone, ?_⟩
    simp only [signWith, hstart, hresult, hafter]
  · intro hother
    have hlen := TxRecord.length_inputs_of_toTx hstart
    obtain ⟨done, tx, hdone, hafter, -, hsome⟩ := signInputs_append hkeyTrust [] (.refl start) hpass
      (show 0 + t.inputs.length ≤ _ by omega)
    have hresult := hsome hother
    rw [List.append_nil, signInputs] at hafter hresult
    rw [List.append_nil] at hafter
    refine ⟨done, hdone, ?_⟩
    simp only [signWith, hstart, hresult, hafter, afterPassing, Except.map]
  · exact signWith_of_isSignable hkeyTrust hstart hpass

end Signing

end

namespace Signing

open Wallet (sampleSuite sampleKey samplePoint samplePhrase sampleInput)

/-- An input that the key opens, and one that nothing opens. -/
def sampleRow : List InputRecord :=
  [sampleInput (.lockToKeyHash samplePoint.hash160), sampleInput ⟨[Opcode.opReturn]⟩]

/-- An input that the key would open, if it did not spend a negative amount. -/
def sampleOverdrawn : InputRecord :=
  { sampleInput (.lockToKeyHash samplePoint.hash160) with value := -5 }

theorem isPassable_sampleInput {locking : Script} (h : locking.bytes ≠ []) :
    (sampleInput locking).IsPassable :=
  InputRecord.isPassable_of_parse (parse_sampleInput locking) h (show (0 : Int64) ≤ 1000 by decide)

theorem isPassable_sampleRow : ∀ input ∈ sampleRow, input.IsPassable := by
  intro input hinput
  simp only [sampleRow, List.mem_cons, List.not_mem_nil, or_false] at hinput
  rcases hinput with rfl | rfl
  · exact isPassable_sampleInput (List.cons_ne_nil _ _)
  · exact isPassable_sampleInput (List.cons_ne_nil _ _)

theorem not_isSignable_sampleInput : ¬ (sampleInput ⟨[Opcode.opReturn]⟩).IsSignable := by
  rintro ⟨locking, hparse, hclass⟩
  obtain rfl := Except.ok.inj ((parse_sampleInput _).symm.trans hparse)
  have hdata : (⟨[Opcode.opReturn]⟩ : Script).classify = .nullData := by decide +kernel
  rw [hdata] at hclass
  cases hclass with
  | inl h => cases h
  | inr h => cases h

theorem halts_sampleOverdrawn :
    sampleOverdrawn.Halts 2 (.invalidTransaction (.negativeSpent 2 (-5))) :=
  .negative ⟨_, parse_sampleInput _, .inl (Script.classify_lockToKeyHash _)⟩
    (show (-5 : Int64) < 0 by decide)

/-- Two payments to the key with another lock between them, the second overdrawn: signing stops at
the second and leaves what comes behind it. Without the second it goes to the end, and the record
counts as partly signed. -/
theorem record_of_failure_overdrawn :
    @PrivateKey.SignsDigests sampleSuite sampleKey ∧
      (∃ start done, @IsDoneRow sampleSuite sampleKey start 0 sampleRow done ∧
        @sign sampleSuite (@Executor.standard sampleSuite) samplePhrase .standard
            { TxRecord.empty with inputs := sampleRow ++ sampleOverdrawn :: sampleRow } =
          ⟨{ TxRecord.empty with inputs := done ++ sampleOverdrawn :: sampleRow },
            .error (.invalidTransaction (.negativeSpent 2 (-5)))⟩) ∧
      ∃ start done, @IsDoneRow sampleSuite sampleKey start 0 sampleRow done ∧
        @sign sampleSuite (@Executor.standard sampleSuite) samplePhrase .standard
            { TxRecord.empty with inputs := sampleRow } =
          ⟨{ TxRecord.empty with inputs := done }, .error .partiallySigned⟩ := by
  have hkey := Wallet.sampleWallet_eq_ok.2
  have hsigns : @PrivateKey.SignsDigests sampleSuite sampleKey := fun _ _ => ⟨_, rfl⟩
  have htrust : ∀ key, @Wallet.signingKey sampleSuite samplePhrase .standard = .ok key →
      @PrivateKey.SignsDigests sampleSuite key := by
    intro key hk
    obtain rfl := Except.ok.inj (hkey.symm.trans hk)
    exact hsigns
  obtain ⟨x, hx⟩ := Wallet.toInput_sampleInput (.lockToKeyHash samplePoint.hash160)
  obtain ⟨y, hy⟩ := Wallet.toInput_sampleInput ⟨[Opcode.opReturn]⟩
  refine ⟨hsigns, ?_, ?_⟩
  · obtain ⟨-, hkeyed⟩ := @record_of_failure sampleSuite (@Executor.standard sampleSuite) samplePhrase
      .standard { TxRecord.empty with inputs := sampleRow ++ sampleOverdrawn :: sampleRow } htrust
    obtain ⟨-, hdescribed⟩ := hkeyed sampleKey hkey
    -- The amount of an input does not travel, so the overdrawn one travels as the first.
    obtain ⟨hstop, -⟩ := hdescribed _ (TxRecord.toTx_eq_ok_iff.mpr ⟨[x, y, x, x, y], [],
      .cons hx (.cons hy (.cons hx (.cons hx (.cons hy .nil)))), .nil, rfl⟩)
    obtain ⟨done, hdone, hsign⟩ := hstop sampleRow sampleOverdrawn sampleRow _ rfl
      isPassable_sampleRow halts_sampleOverdrawn
    exact ⟨_, done, hdone, hsign⟩
  · obtain ⟨-, hkeyed⟩ := @record_of_failure sampleSuite (@Executor.standard sampleSuite) samplePhrase
      .standard { TxRecord.empty with inputs := sampleRow } htrust
    obtain ⟨-, hdescribed⟩ := hkeyed sampleKey hkey
    obtain ⟨-, hthrough⟩ := hdescribed _ (TxRecord.toTx_eq_ok_iff.mpr ⟨[x, y], [],
      .cons hx (.cons hy .nil), .nil, rfl⟩)
    obtain ⟨done, hdone, hsign⟩ := (hthrough isPassable_sampleRow).1
      ⟨_, List.mem_cons_of_mem _ List.mem_cons_self, not_isSignable_sampleInput⟩
    exact ⟨_, done, hdone, hsign⟩

end Signing

end CashWallet
