import CashWallet.Proofs.Wallet.Signing

/-!
# `CashWallet/Proofs/Wallet/Outcome.lean` — what signing leaves behind

Signing keeps two things in step: the record, whose inputs get their signatures as digits, and the
transaction, whose inputs get them as unlocking scripts. **After every input the transaction is the
one that the record describes as it stands** (`Signing.toTx_signInputs`), so the name and the size
that the record is given at the end are its own, although they are taken from the transaction.

The other half is that a signature does not see the signatures made before it. A row that was signed
through was signed over the transaction of the untouched record (`isSignedRow_of_signInputs`), and so
**every field of a successful signing can be told from the record that came in**
(`Signing.record_of_sign`). What there is to say of one input is said in two predicates:

* `Signing.IsSigned`: the input after signing is the input before it with a new signature, and the
  signature is made of the parts that the lock asks for, over the transaction of the record as it
  came;
* `Signing.IsAccepted`: the executor has been asked about the input under the standard rules, in the
  transaction that the record describes when signing is done, and has accepted it.

The first is of use where signing fails too, since it holds of the inputs before the one that failed.
Nothing is asked of the executor but its answers. Where the executor is the standard one and all
inputs are locked to the key of the wallet, signing cannot fail, and both predicates hold of every
input (`Wallet.sign_ownPayments`).
-/

set_option autoImplicit false

namespace CashWallet

/-! ## The record and the transaction in step -/

theorem forall₂_set {α β : Type} {R : α → β → Prop} {as : List α} {bs : List β}
    (h : List.Forall₂ R as bs) {a : α} {b : β} (hab : R a b) (index : Nat) :
    List.Forall₂ R (as.set index a) (bs.set index b) := by
  induction h generalizing index with
  | nil => exact .nil
  | cons hhead htail ih =>
    -- The input is the one that was asked about first, or one of those behind it.
    cases index with
    | zero => exact .cons hab htail
    | succ index => exact .cons hhead (ih index)

/-- **One signature**: the digits in the record and the script in the transaction are set at the
same input, and the record still describes the transaction. -/
theorem TxRecord.toTx_set {label : String} {t : TxRecord} {tx : Tx} (h : t.toTx label = .ok tx)
    {index : Nat} {input : InputRecord} (hinput : t.inputs[index]? = some input) (bytes : Bytes) :
    { t with inputs := t.inputs.set index { input with signature := Hex.encode bytes } }.toTx label =
      .ok (((tx.setUnlocking? index ⟨bytes⟩).map Prod.fst).getD tx) := by
  obtain ⟨xs, os, hxs, hos, rfl⟩ := toTx_eq_ok_iff.mp h
  obtain ⟨hlt, rfl⟩ := List.getElem?_eq_some_iff.mp hinput
  have hlt' : index < xs.length := hxs.length_eq ▸ hlt
  obtain ⟨unlocking, prevHash, -, hhash, hx⟩ := InputRecord.toInput_eq_ok_iff.mp (hxs.get hlt hlt')
  have hget : (Tx.build label t.version.toUInt32 xs os t.lockTime).inputs[index]? =
      some (.derive label prevHash t.inputs[index].prevIndex unlocking t.inputs[index].sequence) :=
    (List.getElem?_eq_getElem hlt').trans (congrArg some hx)
  have hsigned : { t.inputs[index] with signature := Hex.encode bytes }.toInput label =
      .ok (.derive label prevHash t.inputs[index].prevIndex ⟨bytes⟩ t.inputs[index].sequence) :=
    InputRecord.toInput_eq_ok_iff.mpr
      ⟨⟨bytes⟩, prevHash, Script.parse_encode bytes, hhash, rfl⟩
  refine toTx_eq_ok_iff.mpr ⟨_, os, forall₂_set hxs hsigned index, hos, ?_⟩
  simp only [Tx.setUnlocking?, hget, Option.map_some, Option.getD_some]
  rfl

/-- An amount that can be spent is not negative. -/
theorem InputRecord.spentValue_eq_ok {input : InputRecord} {index : Nat} {value : UInt64}
    (h : input.spentValue index = .ok value) :
    0 ≤ input.value ∧ value = input.value.toUInt64 := by
  rw [spentValue] at h
  by_cases hneg : input.value < 0
  · rw [if_pos hneg] at h
    cases h
  · rw [if_neg hneg] at h
    exact ⟨Int64.not_lt.mp hneg, (Except.ok.inj h).symm⟩

/-! ## What the check asked -/

namespace Signing

/-- The executor accepts the input of the transaction for the lock and the amount that the record
gives, under the standard rules. -/
def IsAccepted (executor : Executor) (tx : Tx) (index : Nat) (input : InputRecord) : Prop :=
  ∃ locking, Script.parse input.pubScript = .ok locking ∧
    executor locking tx.spendContext index input.value.toUInt64 .standard = .ok ()

/-- A check that succeeds has asked the executor about every input. -/
theorem isAccepted_of_checkInputs {executor : Executor} {tx : Tx} {inputs : List InputRecord} :
    ∀ {start : Nat}, checkInputs executor tx start inputs = .ok () →
      ∀ {index : Nat} {input : InputRecord}, inputs[index]? = some input →
        0 ≤ input.value ∧ IsAccepted executor tx (start + index) input := by
  induction inputs with
  | nil =>
    intro start _ index input h
    cases h
  | cons first rest ih =>
    intro start hcheck index input h
    rw [checkInputs] at hcheck
    cases hparse : Script.parse first.pubScript with
    | error e =>
      rw [hparse] at hcheck
      cases hcheck
    | ok locking =>
    cases hvalue : first.spentValue start with
    | error e =>
      simp only [hparse, hvalue] at hcheck
      cases hcheck
    | ok value =>
    simp only [hparse, hvalue] at hcheck
    cases haccept : executor locking tx.spendContext start value .standard with
    | error e =>
      rw [haccept] at hcheck
      cases hcheck
    | ok accepted =>
    rw [haccept] at hcheck
    cases index with
    | zero =>
      obtain rfl := Option.some.inj h
      obtain ⟨hnonneg, rfl⟩ := InputRecord.spentValue_eq_ok hvalue
      exact ⟨hnonneg, locking, hparse, haccept⟩
    | succ index =>
      have hnext := ih hcheck h
      rwa [Nat.succ_add_eq_add_succ] at hnext

end Signing

section

variable [KeySuite]

namespace Signing

/-- **Any number of signatures**: wherever signing stops, the record as it stands describes the
transaction as it stands. -/
theorem toTx_signInputs (key : PrivateKey) {label : String} {t : TxRecord} :
    ∀ (inputs before : List InputRecord) {tx : Tx},
      { t with inputs := before ++ inputs }.toTx label = .ok tx →
      { t with inputs := before ++ (signInputs key tx before.length inputs).inputs }.toTx label =
        .ok (signInputs key tx before.length inputs).tx
  | [], before, tx, h => h
  | input :: rest, before, tx, h => by
    rw [signInputs]
    cases hopen : openInput key tx before.length input with
    | error e => exact h
    | ok opened =>
      cases opened with
      | none =>
        rw [← List.singleton_append, ← List.append_assoc] at h
        have hrest := toTx_signInputs key rest (before ++ [input]) h
        rw [List.length_append, List.append_assoc] at hrest
        exact hrest
      | some bytes =>
        have hinput : (before ++ input :: rest)[before.length]? = some input := by
          rw [List.getElem?_append_right (Nat.le_refl _), Nat.sub_self, List.getElem?_cons_zero]
        have hset := TxRecord.toTx_set h hinput bytes
        have hplace : (before ++ input :: rest).set before.length
            { input with signature := Hex.encode bytes } =
              (before ++ [{ input with signature := Hex.encode bytes }]) ++ rest := by
          rw [List.set_append_right _ _ (Nat.le_refl _), Nat.sub_self, List.set_cons_zero,
            List.append_assoc, List.singleton_append]
        simp only [hplace] at hset
        have hrest := toTx_signInputs key rest _ hset
        rw [List.length_append, List.append_assoc] at hrest
        exact hrest

/-! ## What is made at one input -/

/-- The second input is the first with its new signature: the pushes of what the key signs over the
transaction, for the lock and the amount of the input, and of the key where the lock is to its
hash. -/
def IsSigned (key : PrivateKey) (tx : Tx) (index : Nat) (input signed : InputRecord) : Prop :=
  ∃ locking digest signature bytes, Script.parse input.pubScript = .ok locking ∧
    (locking.classify = .pubKeyHash ∨ locking.classify = .pubKey) ∧
    tx.signatureHash index locking.bytes 0x41 input.value.toUInt64 = .ok digest ∧
    key.sign digest = .ok signature ∧
    encodePushes (if locking.classify = .pubKeyHash then
        [signature.toDer ++ [0x41], key.publicKey.compressed]
      else [signature.toDer ++ [0x41]]) = .ok bytes ∧
    signed = { input with signature := Hex.encode bytes }

/-- What is opened is signed. -/
theorem isSigned_of_openInput {key : PrivateKey} {tx : Tx} {index : Nat} {input : InputRecord}
    {bytes : Bytes} (h : openInput key tx index input = .ok (some bytes)) :
    IsSigned key tx index input { input with signature := Hex.encode bytes } := by
  obtain ⟨-, locking, value, digest, signature, hparse, hclass, hvalue, hdigest, hsign, hbytes⟩ :=
    openInput_eq_some_iff.mp h
  obtain ⟨-, rfl⟩ := InputRecord.spentValue_eq_ok hvalue
  rw [unlockingBytes_eq] at hbytes
  exact ⟨locking, digest, signature, bytes, hparse, isSignable_iff.mp hclass, hdigest, hsign, hbytes,
    rfl⟩

/-- An input of a row that was signed through has been signed. -/
theorem IsSignedRow.exists_of_getElem? {key : PrivateKey} {tx : Tx} {start : Nat}
    {inputs signed : List InputRecord} (h : IsSignedRow key tx start inputs signed) :
    ∀ {index : Nat} {input : InputRecord}, inputs[index]? = some input → ∃ after,
      signed[index]? = some after ∧ IsSigned key tx (start + index) input after := by
  induction h with
  | nil =>
    intro index input h
    cases h
  | cons hopen _ ih =>
    intro index input h
    cases index with
    | zero =>
      obtain rfl := Option.some.inj h
      exact ⟨_, rfl, isSigned_of_openInput hopen⟩
    | succ index =>
      obtain ⟨after, hafter, hsigned⟩ := ih h
      rw [Nat.succ_add_eq_add_succ] at hsigned
      exact ⟨after, hafter, hsigned⟩

/-! ## A successful signing -/

/-- What a successful signing went through: every input was signed over the transaction of the
record as it came, and the executor accepted every input of the record as it went. -/
theorem signWith_eq_ok {executor : Executor} {key : PrivateKey} {label : String} {t : TxRecord}
    (h : (signWith executor key label t).result = .ok ()) :
    ∃ start final checked, t.toTx label = .ok start ∧
      (signWith executor key label t).record.toTx label = .ok final ∧
      (signWith executor key label t).record.toTx mainLabel = .ok checked ∧
      (signWith executor key label t).record =
        { t with
          inputs := (signWith executor key label t).record.inputs
          hash := final.hash.display
          size := Int32.ofNat final.size } ∧
      IsSignedRow key start 0 t.inputs (signWith executor key label t).record.inputs ∧
      checkInputs executor checked 0 (signWith executor key label t).record.inputs = .ok () := by
  unfold signWith at h ⊢
  cases hstart : t.toTx label with
  | error e =>
    rw [hstart] at h
    cases h
  | ok start =>
    simp only [hstart] at h ⊢
    have hfinal := toTx_signInputs key t.inputs [] hstart
    cases hresult : (signInputs key start 0 t.inputs).result with
    | error e =>
      simp only [hresult] at h
      cases h
    | ok all =>
      cases all with
      | false =>
        simp only [hresult] at h
        cases h
      | true =>
        simp only [hresult, TxRecord.validate] at h ⊢
        cases hchecked : TxRecord.toTx mainLabel
            { t with
              inputs := (signInputs key start 0 t.inputs).inputs
              hash := (signInputs key start 0 t.inputs).tx.hash.display
              size := Int32.ofNat (signInputs key start 0 t.inputs).tx.size } with
        | error e =>
          rw [hchecked] at h
          cases h
        | ok checked =>
          rw [hchecked] at h
          exact ⟨start, _, checked, rfl, hfinal, rfl, rfl,
            isSignedRow_of_signInputs (.refl start) hresult, h⟩

/-- **Every input of a record that was signed** has its signature and was accepted with it. -/
theorem exists_signed_of_signWith {executor : Executor} {key : PrivateKey} {label : String}
    {t : TxRecord} (h : (signWith executor key label t).result = .ok ()) :
    ∃ start final checked, t.toTx label = .ok start ∧
      (signWith executor key label t).record.toTx label = .ok final ∧
      (signWith executor key label t).record.toTx mainLabel = .ok checked ∧
      (signWith executor key label t).record =
        { t with
          inputs := (signWith executor key label t).record.inputs
          hash := final.hash.display
          size := Int32.ofNat final.size } ∧
      (signWith executor key label t).record.inputs.length = t.inputs.length ∧
      ∀ (index : Nat) (input : InputRecord), t.inputs[index]? = some input →
        0 ≤ input.value ∧ ∃ after,
          (signWith executor key label t).record.inputs[index]? = some after ∧
          IsSigned key start index input after ∧ IsAccepted executor checked index after := by
  obtain ⟨start, final, checked, hstart, hfinal, hchecked, hrecord, hrow, hcheck⟩ := signWith_eq_ok h
  refine ⟨start, final, checked, hstart, hfinal, hchecked, hrecord, hrow.isResigned.length_eq.symm,
    fun index input hinput => ?_⟩
  obtain ⟨after, hafter, hsigned⟩ := hrow.exists_of_getElem? hinput
  -- The check finds the amount that was signed for, beside the new signature.
  obtain ⟨hnonneg, haccept⟩ := isAccepted_of_checkInputs hcheck hafter
  rw [Nat.zero_add] at hsigned haccept
  have hvalue : after.value = input.value := by
    obtain ⟨locking, digest, signature, bytes, -, -, -, -, -, rfl⟩ := hsigned
    rfl
  rw [hvalue] at hnonneg
  exact ⟨hnonneg, after, hafter, hsigned, haccept⟩

theorem sign_of_signingKey {mnemonic : String} {config : WalletConfig} {key : PrivateKey}
    (hkey : Wallet.signingKey mnemonic config = .ok key) (executor : Executor) (t : TxRecord) :
    sign executor mnemonic config t = signWith executor key config.network.label t := by
  rw [sign, hkey]

/-- **What a successful signing leaves behind.** Let a record be signed without failure. Then the
phrase yields a key, and the record describes a transaction before and after. Nothing in the record
is changed but the signatures of its inputs, its name and its size, and the two are those of the
transaction that it describes now, the size as far as 31 bits hold it. Every input is locked to a
key or to the hash of one and spends no negative amount. Its signature now is the digits of the
pushes of what the key signs over the transaction of the record as it came, with the byte of the
type, and for a lock to a hash of the key in its short form of 33 bytes (`IsSigned`). The executor
accepted every input under the standard rules (`IsAccepted`). -/
theorem record_of_sign {executor : Executor} {mnemonic : String} {config : WalletConfig} {t : TxRecord}
    (h : (sign executor mnemonic config t).result = .ok ()) :
    ∃ key start final checked, Wallet.signingKey mnemonic config = .ok key ∧
      t.toTx config.network.label = .ok start ∧
      (sign executor mnemonic config t).record.toTx config.network.label = .ok final ∧
      (sign executor mnemonic config t).record.toTx mainLabel = .ok checked ∧
      (sign executor mnemonic config t).record =
        { t with
          inputs := (sign executor mnemonic config t).record.inputs
          hash := final.hash.display
          size := Int32.ofNat final.size } ∧
      (final.size < 2 ^ 31 →
        (sign executor mnemonic config t).record.size.toInt = final.size) ∧
      key.publicKey.compressed.length = 33 ∧
      (sign executor mnemonic config t).record.inputs.length = t.inputs.length ∧
      ∀ (index : Nat) (input : InputRecord), t.inputs[index]? = some input →
        0 ≤ input.value ∧ ∃ after,
          (sign executor mnemonic config t).record.inputs[index]? = some after ∧
          IsSigned key start index input after ∧ IsAccepted executor checked index after := by
  cases hkey : Wallet.signingKey mnemonic config with
  | error e =>
    rw [sign, hkey] at h
    cases h
  | ok key =>
    rw [sign_of_signingKey hkey] at h ⊢
    obtain ⟨start, final, checked, hstart, hfinal, hchecked, hrecord, hlen, hinputs⟩ :=
      exists_signed_of_signWith h
    refine ⟨key, start, final, checked, rfl, hstart, hfinal, hchecked, hrecord, fun hsize => ?_,
      key.publicKey.length_compressed, hlen, hinputs⟩
    rw [hrecord]
    exact Int32.toInt_ofNat_of_lt hsize

end Signing

/-! ## A wallet spends what is paid to it

Here the two halves meet: that signing succeeds on a row of inputs that are locked to the key
(`Signing.signWith_of_isOwn`), and what a signing that succeeds has left behind. -/

/-- **A wallet can spend what is paid to the address that it shows.** The address is read back as
the hash of the key that the wallet signs with. Let a record describe a transaction, and let its
inputs spend no negative amounts and be locked to that hash, or to that key in either of its forms.
Then signing succeeds, and whatever the number and the mixture of the inputs, each has the signature
of the key over the transaction of the record as it came, and the standard rules accept it. -/
theorem Wallet.sign_ownPayments {entropy : Bytes} {text : String} {config : WalletConfig}
    {w : Wallet} (hmake : make entropy text config = .ok w)
    (htrust : ∀ k, signingKey w.mnemonic w.config = .ok k → k.IsTrusted) :
    ∃ k h, signingKey w.mnemonic w.config = .ok k ∧
      CashAddress.decode w.address = .ok ⟨w.config.network.label, .pubKeyHash, h⟩ ∧
      ∀ (t : TxRecord) (label : String) (tx : Tx), t.toTx label = .ok tx →
        (∀ input ∈ t.inputs, 0 ≤ input.value ∧ ∃ locking,
          Script.parse input.pubScript = .ok locking ∧
            (locking = .lockToKeyHash h ∨ locking = .lockToKey k.publicKey.compressed ∨
              locking = .lockToKey k.publicKey.uncompressed)) →
        (Signing.sign Executor.standard w.mnemonic w.config t).result = .ok () ∧
        ∃ start checked, t.toTx w.config.network.label = .ok start ∧
          (Signing.sign Executor.standard w.mnemonic w.config t).record.toTx mainLabel =
            .ok checked ∧
          ∀ (index : Nat) (input : InputRecord), t.inputs[index]? = some input → ∃ after,
            (Signing.sign Executor.standard w.mnemonic w.config t).record.inputs[index]? =
              some after ∧
            Signing.IsSigned k start index input after ∧
            Signing.IsAccepted Executor.standard checked index after := by
  obtain ⟨k, hkey, haddress⟩ := address_of_make hmake
  refine ⟨k, k.publicKey.hash160, hkey, haddress, fun t label tx htx hown => ?_⟩
  rw [Signing.sign_of_signingKey hkey]
  have hresult := Signing.signWith_of_isOwn (htrust k hkey) htx
    (fun i hi => ⟨(hown i hi).1, (hown i hi).2⟩) w.config.network.label
  obtain ⟨start, -, checked, hstart, -, hchecked, -, -, hinputs⟩ :=
    Signing.exists_signed_of_signWith hresult
  exact ⟨hresult, start, checked, hstart, hchecked, fun index input hinput =>
    (hinputs index input hinput).2⟩

end

namespace Wallet

/-- One payment of each kind, to a hash and to a key in its two forms. -/
def samplePayments (h : Hash160) (k : PublicKey) : TxRecord :=
  { TxRecord.empty with
    inputs := [sampleInput (.lockToKeyHash h), sampleInput (.lockToKey k.compressed),
      sampleInput (.lockToKey k.uncompressed)] }

/-- The wallet of the phrase spends one payment of each kind, the last of them too. -/
theorem sign_ownPayments_sample :
    ∃ k h, @signingKey sampleSuite sampleWallet.mnemonic sampleWallet.config = .ok k ∧
      CashAddress.decode sampleWallet.address = .ok ⟨mainLabel, .pubKeyHash, h⟩ ∧
      (@Signing.sign sampleSuite (@Executor.standard sampleSuite) sampleWallet.mnemonic
        sampleWallet.config
        (samplePayments h (@PrivateKey.publicKey sampleSuite k))).result = .ok () ∧
      ∃ start after, (samplePayments h (@PrivateKey.publicKey sampleSuite k)).toTx mainLabel =
          .ok start ∧
        (@Signing.sign sampleSuite (@Executor.standard sampleSuite) sampleWallet.mnemonic
          sampleWallet.config
          (samplePayments h (@PrivateKey.publicKey sampleSuite k))).record.inputs[2]? =
            some after ∧
        @Signing.IsSigned sampleSuite k start 2
          (sampleInput (.lockToKey (@PrivateKey.publicKey sampleSuite k).uncompressed)) after := by
  obtain ⟨hmake, hkey⟩ := sampleWallet_eq_ok
  have htrust : ∀ k, @signingKey sampleSuite sampleWallet.mnemonic sampleWallet.config = .ok k →
      @PrivateKey.IsTrusted sampleSuite k := by
    intro k hk
    obtain rfl := Except.ok.inj (hkey.symm.trans hk)
    exact isTrusted_sampleKey
  obtain ⟨k, h, hk, haddress, hsign⟩ := @sign_ownPayments sampleSuite _ _ _ _ hmake htrust
  obtain ⟨x, hx⟩ := toInput_sampleInput (.lockToKeyHash h)
  obtain ⟨y, hy⟩ := toInput_sampleInput (.lockToKey (@PrivateKey.publicKey sampleSuite k).compressed)
  obtain ⟨z, hz⟩ :=
    toInput_sampleInput (.lockToKey (@PrivateKey.publicKey sampleSuite k).uncompressed)
  have hpays : ∀ locking, (0 : Int64) ≤ (sampleInput locking).value ∧
      Script.parse (sampleInput locking).pubScript = .ok locking :=
    fun locking => ⟨show (0 : Int64) ≤ 1000 by decide, Script.parse_encode locking.bytes⟩
  obtain ⟨hresult, start, checked, hstart, -, hinputs⟩ :=
    hsign (samplePayments h (@PrivateKey.publicKey sampleSuite k)) mainLabel _
      (TxRecord.toTx_eq_ok_iff.mpr
        ⟨[x, y, z], [], .cons hx (.cons hy (.cons hz .nil)), .nil, rfl⟩) (by
        intro input hinput
        simp only [samplePayments, List.mem_cons, List.not_mem_nil, or_false] at hinput
        rcases hinput with rfl | rfl | rfl
        · exact ⟨(hpays _).1, _, (hpays _).2, .inl rfl⟩
        · exact ⟨(hpays _).1, _, (hpays _).2, .inr (.inl rfl)⟩
        · exact ⟨(hpays _).1, _, (hpays _).2, .inr (.inr rfl)⟩)
  obtain ⟨after, hafter, hsigned, -⟩ := hinputs 2 _ rfl
  exact ⟨k, h, hk, haddress, hresult, start, after, hstart, hafter, hsigned⟩

end Wallet

namespace Signing

open Wallet (sampleSuite sampleKey samplePhrase sampleInput)

/-- A payment to the hash of the key of the sample wallet. -/
def samplePayment : TxRecord :=
  { TxRecord.empty with
    inputs := [sampleInput (.lockToKeyHash (@PrivateKey.publicKey sampleSuite sampleKey).hash160)] }

theorem parse_sampleInput (locking : Script) :
    Script.parse (sampleInput locking).pubScript = .ok locking :=
  Script.parse_encode locking.bytes

theorem result_samplePayment :
    (@sign sampleSuite (@Executor.standard sampleSuite) samplePhrase .standard
      samplePayment).result = .ok () := by
  obtain ⟨x, hx⟩ := Wallet.toInput_sampleInput
    (.lockToKeyHash (@PrivateKey.publicKey sampleSuite sampleKey).hash160)
  have htx : samplePayment.toTx mainLabel = .ok (.build mainLabel 1 [x] [] 0) :=
    TxRecord.toTx_eq_ok_iff.mpr ⟨[x], [], .cons hx .nil, .nil, rfl⟩
  rw [@sign_of_signingKey sampleSuite _ _ _ Wallet.sampleWallet_eq_ok.2]
  refine @signWith_of_isOwn sampleSuite _ Wallet.isTrusted_sampleKey _ _ _ htx (fun i hi => ?_) _
  obtain rfl := List.mem_singleton.mp hi
  exact ⟨show (0 : Int64) ≤ 1000 by decide, _, parse_sampleInput _, .inl rfl⟩

/-- The payment is signed over its transaction as it came, and its input has the digits of the
pushes of the signature and the key. -/
theorem record_of_sign_samplePayment :
    ∃ start digest signature bytes, samplePayment.toTx mainLabel = .ok start ∧
      start.signatureHash 0
        (Script.lockToKeyHash (@PrivateKey.publicKey sampleSuite sampleKey).hash160).bytes 0x41
        1000 = .ok digest ∧
      @PrivateKey.sign sampleSuite sampleKey digest = .ok signature ∧
      encodePushes [signature.toDer ++ [0x41],
        (@PrivateKey.publicKey sampleSuite sampleKey).compressed] = .ok bytes ∧
      (@sign sampleSuite (@Executor.standard sampleSuite) samplePhrase .standard
        samplePayment).record.inputs.map (·.signature) = [Hex.encode bytes] := by
  obtain ⟨key, start, final, checked, hkey, hstart, -, -, -, -, -, hlen, hinputs⟩ :=
    @record_of_sign sampleSuite _ _ _ _ result_samplePayment
  obtain rfl := Except.ok.inj (Wallet.sampleWallet_eq_ok.2.symm.trans hkey)
  obtain ⟨-, after, hafter, hsigned, -⟩ := hinputs 0 _ rfl
  obtain ⟨locking, digest, signature, bytes, hparse, -, hdigest, hsign, hbytes, rfl⟩ := hsigned
  obtain rfl := Except.ok.inj ((parse_sampleInput _).symm.trans hparse)
  rw [if_pos (Script.classify_lockToKeyHash _)] at hbytes
  refine ⟨start, digest, signature, bytes, hstart, hdigest, hsign, hbytes, ?_⟩
  obtain ⟨only, honly⟩ := List.length_eq_one_iff.mp hlen
  rw [honly] at hafter ⊢
  obtain rfl := Option.some.inj hafter
  rfl

end Signing

end CashWallet
