import CashWallet.Curve.Secp256k1
import CashWallet.Proofs.Script.Spend
import CashWallet.Proofs.Wallet.Derivation
import CashWallet.Proofs.Wallet.Record
import CashWallet.Wallet.Signing

/-!
# `CashWallet/Proofs/Wallet/Signing.lean` — signing succeeds on what is paid to the key

Whoever pays to the address of a wallet locks the payment to the hash of its key, and whoever knows
the key may lock a payment to the key itself, in either of its forms. **A record whose inputs are all
locked in one of these ways is signed without failure**, in any number and any mixture
(`Signing.signWith_of_isOwn`).

Signing and checking look at different transactions: the one is built under the label of the network
and changes with every input that is signed, the other is built under the label of the main network
when all are signed. What holds them together is that signatures see no difference between them
(`Tx.SameSpend`), so every step of signing may be read as a step on the transaction that it started
from (`isSignedRow_of_signInputs`), and every input may be checked against that one too
(`checkInputs_of_isSignedRow`).

The argument is made in three steps, each with its own section below:

* an input with such a lock is opened (`openInput_of_isOwn`), which is the only place where it
  matters that the key signs;
* so the whole row is signed through (`signInputs_of_isOwn`);
* and each input of the row passes the check (`standard_of_openInput`), which is the only place where
  it matters that the signatures verify and that the forms of the key are read back.

These three facts about the key are taken on trust (`PrivateKey.IsTrusted`). They are facts of the
curve, and none of them speaks of transactions or of scripts. The last section has a wallet of which
they can be proved.
-/

set_option autoImplicit false

namespace CashWallet

namespace InputRecord

/-- The lock of the input is one that a signature alone, or with its key, opens. -/
def IsSignable (input : InputRecord) : Prop :=
  ∃ locking, Script.parse input.pubScript = .ok locking ∧
    (locking.classify = .pubKeyHash ∨ locking.classify = .pubKey)

/-- Nothing at all is no lock that a signature opens. -/
theorem IsSignable.ne_empty {input : InputRecord} (h : input.IsSignable) : input.pubScript ≠ "" := by
  intro hempty
  obtain ⟨locking, hparse, hclass⟩ := h
  rw [hempty] at hparse
  obtain rfl := Except.ok.inj hparse
  have hnone : (⟨[]⟩ : Script).classify = .nonstandard := by decide +kernel
  rw [hnone] at hclass
  cases hclass with
  | inl h => cases h
  | inr h => cases h

end InputRecord

/-! ## Locks, and the scripts that open them -/

namespace Signing

theorem isSignable_iff {lock : LockClass} :
    isSignable lock = true ↔ lock = .pubKeyHash ∨ lock = .pubKey := by
  rw [isSignable, Bool.or_eq_true, beq_iff_eq, beq_iff_eq]

/-- Both kinds of locks are opened by pushes, and the signature comes first. -/
theorem unlockingBytes_eq (lock : LockClass) (s : Signature) (k : PublicKey) :
    unlockingBytes lock s k =
      encodePushes (if lock = .pubKeyHash then [s.toDer ++ [0x41], k.compressed]
        else [s.toDer ++ [0x41]]) := by
  by_cases hlock : lock = .pubKeyHash
  · rw [unlockingBytes, if_pos hlock, if_pos hlock]
    rfl
  · rw [unlockingBytes, if_neg hlock, if_neg hlock]
    rfl

/-- The script that opens a lock to the hash of the key pushes the signature and the key; any other
pushes the signature alone. -/
theorem unlockingBytes_eq_ok (lock : LockClass) (s : Signature) (k : PublicKey) :
    unlockingBytes lock s k =
      .ok ((if lock = .pubKeyHash then [s.withType, k.compressed] else [s.withType]).flatMap
        shortPush) := by
  rw [unlockingBytes]
  by_cases hlock : lock = .pubKeyHash
  · rw [if_pos hlock, if_pos hlock]
    exact encodePushesFrom_short (isShortPush_of_mem_signatureAndKey s k) 0
  · rw [if_neg hlock, if_neg hlock]
    exact encodePushesFrom_short (isShortPush_of_mem_signature s) 0

theorem unlocking_of_toInput {label : String} {input : InputRecord} {bytes : Bytes} {x : TxInput}
    (h : { input with signature := Hex.encode bytes }.toInput label = .ok x) :
    x.unlocking = ⟨bytes⟩ := by
  obtain ⟨unlocking, prevHash, hs, -, rfl⟩ := InputRecord.toInput_eq_ok_iff.mp h
  exact (Except.ok.inj ((Script.parse_encode bytes).symm.trans hs)).symm

/-- A new unlocking script is not seen by signatures. -/
theorem sameSpend_unlocked {tx start : Tx} (h : Tx.SameSpend tx start) (index : Nat)
    (script : Script) :
    Tx.SameSpend (((tx.setUnlocking? index script).map Prod.fst).getD tx) start := by
  rw [← Tx.Change.apply_unlocking]
  exact (Tx.SameSpend.unlocking tx index script).trans h

/-- One input that is passed over is enough for a row not to be signed through. -/
theorem map_false_ne_ok_true (result : Except WalletError Bool) :
    (result.map fun _ => false) ≠ .ok true := by
  cases result with
  | error e => exact fun h => by cases h
  | ok all => exact fun h => by cases h

/-! ## Payments to a key -/

def LocksTo (k : PublicKey) (locking : Script) : Prop :=
  locking = .lockToKeyHash k.hash160 ∨ locking = .lockToKey k.compressed ∨
    locking = .lockToKey k.uncompressed

theorem LocksTo.isSignable {k : PublicKey} {locking : Script} (h : LocksTo k locking) :
    isSignable locking.classify = true := by
  rcases h with rfl | rfl | rfl
  · rw [Script.classify_lockToKeyHash]
    rfl
  · rw [Script.classify_lockToKey (PublicKey.isKeyShape_compressed _)]
    rfl
  · rw [Script.classify_lockToKey (PublicKey.isKeyShape_uncompressed _)]
    rfl

structure IsOwn (k : PublicKey) (input : InputRecord) : Prop where
  value_nonneg : 0 ≤ input.value
  lock : ∃ locking, Script.parse input.pubScript = .ok locking ∧ LocksTo k locking

theorem IsOwn.isSignable {k : PublicKey} {input : InputRecord} (h : IsOwn k input) :
    input.IsSignable := by
  obtain ⟨locking, hparse, hlock⟩ := h.lock
  exact ⟨locking, hparse, isSignable_iff.mp hlock.isSignable⟩

end Signing

section

variable [KeySuite]

/-- What is taken on trust of the operations with a key. -/
structure PrivateKey.IsTrusted (k : PrivateKey) : Prop where
  signs : ∀ digest : Bytes, digest.length = 32 →
    ∃ s, KeySuite.sign k digest = some s ∧ KeySuite.verify k.publicKey digest s = true
  readCompressed : KeySuite.readPoint k.publicKey.compressed = some k.publicKey
  readUncompressed : KeySuite.readPoint k.publicKey.uncompressed = some k.publicKey

/-- What is taken on trust of a key: it signs every digest of 32 bytes. -/
def PrivateKey.SignsDigests (k : PrivateKey) : Prop :=
  ∀ digest : Bytes, digest.length = 32 → ∃ s, KeySuite.sign k digest = some s

theorem PrivateKey.sign_of_length {k : PrivateKey} {digest : Bytes} (hlen : digest.length = 32)
    {s : Signature} (hs : KeySuite.sign k digest = some s) : k.sign digest = .ok s := by
  simp only [PrivateKey.sign, hlen, ne_eq, not_true_eq_false, if_false, hs]

namespace PrivateKey.IsTrusted

theorem signsDigests {k : PrivateKey} (h : k.IsTrusted) : k.SignsDigests := by
  intro digest hlen
  obtain ⟨s, hs, -⟩ := h.signs digest hlen
  exact ⟨s, hs⟩

theorem sign_eq_ok {k : PrivateKey} (h : k.IsTrusted) {digest : Bytes}
    (hlen : digest.length = 32) :
    ∃ s, k.sign digest = .ok s ∧ s.verify digest k.publicKey = true := by
  obtain ⟨s, hs, hverify⟩ := h.signs digest hlen
  exact ⟨s, sign_of_length hlen hs, hverify⟩

theorem ofBytes?_compressed {k : PrivateKey} (h : k.IsTrusted) :
    PublicKey.ofBytes? k.publicKey.compressed = .ok k.publicKey := by
  have hne : k.publicKey.compressed.isEmpty = false := rfl
  simp only [PublicKey.ofBytes?, hne, Bool.false_eq_true, if_false, h.readCompressed]

theorem ofBytes?_uncompressed {k : PrivateKey} (h : k.IsTrusted) :
    PublicKey.ofBytes? k.publicKey.uncompressed = .ok k.publicKey := by
  have hne : k.publicKey.uncompressed.isEmpty = false := rfl
  simp only [PublicKey.ofBytes?, hne, Bool.false_eq_true, if_false, h.readUncompressed]

end PrivateKey.IsTrusted

namespace Signing

/-! ## Opening one input -/

/-- What opening an input comes to when it succeeds. -/
theorem openInput_eq_some_iff {key : PrivateKey} {tx : Tx} {index : Nat} {input : InputRecord}
    {bytes : Bytes} :
    openInput key tx index input = .ok (some bytes) ↔
      input.pubScript.isEmpty = false ∧
        ∃ locking value digest signature, Script.parse input.pubScript = .ok locking ∧
          isSignable locking.classify = true ∧ input.spentValue index = .ok value ∧
          tx.signatureHash index locking.bytes HashType.allForkId value = .ok digest ∧
          key.sign digest = .ok signature ∧
          unlockingBytes locking.classify signature key.publicKey = .ok bytes := by
  unfold openInput
  constructor
  · intro h
    -- Opening asks six questions in a row. An answer that fails is not the outcome that is given,
    -- so one way through is left.
    by_cases hempty : input.pubScript.isEmpty = true
    · rw [if_pos hempty] at h
      cases h
    rw [if_neg hempty] at h
    cases hparse : Script.parse input.pubScript with
    | error e =>
      simp only [hparse] at h
      cases h
    | ok locking =>
    cases hclass : isSignable locking.classify with
    | false =>
      simp only [hparse, hclass, Bool.not_false, if_true] at h
      cases h
    | true =>
    simp only [hparse, hclass, Bool.not_true, Bool.false_eq_true, if_false] at h
    cases hvalue : input.spentValue index with
    | error e =>
      simp only [hvalue] at h
      cases h
    | ok value =>
    simp only [hvalue] at h
    cases hdigest : tx.signatureHash index locking.bytes HashType.allForkId value with
    | error e =>
      simp only [hdigest] at h
      cases h
    | ok digest =>
    simp only [hdigest] at h
    cases hsign : key.sign digest with
    | error e =>
      simp only [hsign] at h
      cases h
    | ok signature =>
    simp only [hsign] at h
    cases hbytes : unlockingBytes locking.classify signature key.publicKey with
    | error e =>
      simp only [hbytes] at h
      cases h
    | ok bytes' =>
    simp only [hbytes, Except.ok.injEq, Option.some.injEq] at h
    rw [h] at hbytes
    exact ⟨Bool.eq_false_iff.mpr hempty, locking, value, digest, signature, rfl, hclass, rfl, hdigest,
      hsign, hbytes⟩
  · rintro ⟨hempty, locking, value, digest, signature, hparse, hclass, hvalue, hdigest, hsign,
      hbytes⟩
    simp only [hempty, Bool.false_eq_true, if_false, hparse, hclass, Bool.not_true, hvalue, hdigest,
      hsign, hbytes]

/-- Opening an input does not see unlocking scripts. -/
theorem openInput_congr {key : PrivateKey} {s t : Tx} (h : Tx.SameSpend s t) (index : Nat)
    (input : InputRecord) : openInput key s index input = openInput key t index input := by
  unfold openInput
  simp only [Tx.signatureHash_congr h]

/-! ## Locks that a signature opens -/

/-- **An input with such a lock** and no negative amount is opened by any key that signs. -/
theorem openInput_of_isSignable {key : PrivateKey} (htrust : key.SignsDigests) {tx : Tx} {index : Nat}
    (hindex : index < tx.inputs.length) {input : InputRecord} (hlock : input.IsSignable)
    (hvalue : 0 ≤ input.value) : ∃ bytes, openInput key tx index input = .ok (some bytes) := by
  have hempty := InputRecord.isEmpty_of_ne hlock.ne_empty
  obtain ⟨locking, hparse, hclass⟩ := hlock
  obtain ⟨digest, hdigest⟩ := Tx.signatureHash_of_lt hindex locking.bytes HashType.allForkId
    input.value.toUInt64
  have hlen := Tx.length_of_signatureHash hdigest
  obtain ⟨s, hs⟩ := htrust digest hlen
  exact ⟨_, openInput_eq_some_iff.mpr ⟨hempty, locking, _, digest, s, hparse,
    isSignable_iff.mpr hclass, InputRecord.spentValue_of_nonneg hvalue index, hdigest,
    PrivateKey.sign_of_length hlen hs, unlockingBytes_eq_ok locking.classify s key.publicKey⟩⟩

/-- **An input that pays to the key is opened.** -/
theorem openInput_of_isOwn {key : PrivateKey} (htrust : key.IsTrusted) {tx : Tx} {index : Nat}
    {input : InputRecord} (hown : IsOwn key.publicKey input) (hindex : index < tx.inputs.length) :
    ∃ bytes, openInput key tx index input = .ok (some bytes) :=
  openInput_of_isSignable htrust.signsDigests hindex hown.isSignable hown.value_nonneg

/-! ## Signing the inputs one after the other -/

/-- The second row is the first with every input opened, from the given index on, all of them over
one and the same transaction. -/
inductive IsSignedRow (key : PrivateKey) (tx : Tx) : Nat → List InputRecord → List InputRecord → Prop
  | nil (index : Nat) : IsSignedRow key tx index [] []
  | cons {index : Nat} {input : InputRecord} {bytes : Bytes} {rest signed : List InputRecord}
      (hopen : openInput key tx index input = .ok (some bytes))
      (hrest : IsSignedRow key tx (index + 1) rest signed) :
      IsSignedRow key tx index (input :: rest) ({ input with signature := Hex.encode bytes } :: signed)

theorem IsSignedRow.isResigned {key : PrivateKey} {tx : Tx} {index : Nat}
    {inputs signed : List InputRecord} (h : IsSignedRow key tx index inputs signed) :
    List.Forall₂ InputRecord.IsResigned inputs signed := by
  induction h with
  | nil => exact .nil
  | cons hopen _ ih => exact .cons ⟨_, _, Script.parse_encode _, rfl⟩ ih

/-- **A row that was signed through** was signed input by input, each as if the others had not been
touched. -/
theorem isSignedRow_of_signInputs {key : PrivateKey} {start : Tx} :
    ∀ {inputs : List InputRecord} {index : Nat} {tx : Tx}, Tx.SameSpend tx start →
      (signInputs key tx index inputs).result = .ok true →
      IsSignedRow key start index inputs (signInputs key tx index inputs).inputs
  | [], index, tx, _, _ => .nil index
  | input :: rest, index, tx, hsame, hresult => by
    rw [signInputs] at hresult ⊢
    cases hopen : openInput key tx index input with
    | error e =>
      rw [hopen] at hresult
      cases hresult
    | ok opened =>
      cases opened with
      | none =>
        simp only [hopen] at hresult
        exact absurd hresult (map_false_ne_ok_true _)
      | some bytes =>
        simp only [hopen] at hresult ⊢
        -- Opening over the transaction as it stands is opening over the one signing started from.
        rw [openInput_congr hsame] at hopen
        exact .cons hopen (isSignedRow_of_signInputs (sameSpend_unlocked hsame index ⟨bytes⟩) hresult)

/-- **Signing the inputs of a row** that pay to the key signs all of them. -/
theorem signInputs_of_isOwn {key : PrivateKey} (htrust : key.IsTrusted) {start : Tx} :
    ∀ {inputs : List InputRecord} {index : Nat} {tx : Tx}, Tx.SameSpend tx start →
      (∀ input ∈ inputs, IsOwn key.publicKey input) →
      index + inputs.length ≤ start.inputs.length →
      (signInputs key tx index inputs).result = .ok true
  | [], index, tx, _, _, _ => rfl
  | input :: rest, index, tx, hsame, hown, hlen => by
    rw [List.length_cons] at hlen
    obtain ⟨bytes, hopen⟩ := openInput_of_isOwn htrust (hown input List.mem_cons_self)
      (show index < start.inputs.length by omega)
    rw [← openInput_congr hsame] at hopen
    simp only [signInputs, hopen]
    exact signInputs_of_isOwn htrust (sameSpend_unlocked hsame index ⟨bytes⟩)
      (fun i hi => hown i (List.mem_cons_of_mem input hi))
      (show index + 1 + rest.length ≤ start.inputs.length by omega)

/-! ## Checking what was signed -/

/-- **An input that was opened passes the standard rules**, in any transaction that spends and pays
the same and has the bytes that open it. -/
theorem standard_of_openInput {key : PrivateKey} (htrust : key.IsTrusted) {tx final : Tx}
    (hsame : Tx.SameSpend final tx) {index : Nat} {input : InputRecord} {bytes : Bytes}
    (hown : IsOwn key.publicKey input) (hopen : openInput key tx index input = .ok (some bytes))
    (hunlocking : final.inputs[index]?.map TxInput.unlocking = some ⟨bytes⟩) :
    ∃ locking value, Script.parse input.pubScript = .ok locking ∧
      input.spentValue index = .ok value ∧
      Executor.standard locking final.spendContext index value .standard = .ok () := by
  obtain ⟨-, locking, value, digest, s, hparse, -, hvalue, hdigest, hsign, hbytes⟩ :=
    openInput_eq_some_iff.mp hopen
  obtain ⟨locking', hparse', hlock⟩ := hown.lock
  rw [hparse', Except.ok.injEq] at hparse
  subst hparse
  refine ⟨locking', value, hparse', hvalue, ?_⟩
  rw [unlockingBytes_eq_ok, Except.ok.injEq] at hbytes
  have hfinal : final.spendContext.signatureHash index locking' value HashType.allForkId =
      .ok digest := by
    simp only [Tx.spendContext, Tx.signatureHash_congr hsame, hdigest]
  have hverify : s.verify digest key.publicKey = true := by
    obtain ⟨s', hsign', hverify⟩ := htrust.sign_eq_ok (Tx.length_of_signatureHash hdigest)
    rw [hsign, Except.ok.injEq] at hsign'
    rwa [hsign']
  have hin : final.spendContext.unlocking? index = some ⟨bytes⟩ := hunlocking
  -- Which parts were pushed depends on the lock, so each lock meets its own law.
  rcases hlock with rfl | rfl | rfl
  · rw [Script.classify_lockToKeyHash, if_pos rfl] at hbytes
    rw [← hbytes] at hin
    exact Executor.standard_lockToKeyHash hin htrust.ofBytes?_compressed hfinal hverify
  · have hclass := Script.classify_lockToKey key.publicKey.isKeyShape_compressed
    rw [hclass, if_neg (by decide)] at hbytes
    rw [← hbytes] at hin
    exact Executor.standard_lockToKey hclass hin htrust.ofBytes?_compressed hfinal hverify
  · have hclass := Script.classify_lockToKey key.publicKey.isKeyShape_uncompressed
    rw [hclass, if_neg (by decide)] at hbytes
    rw [← hbytes] at hin
    exact Executor.standard_lockToKey hclass hin htrust.ofBytes?_uncompressed hfinal hverify

/-- **The inputs of a row that was signed pass the check**, one after the other. -/
theorem checkInputs_of_isSignedRow {key : PrivateKey} (htrust : key.IsTrusted) {tx final : Tx}
    (hsame : Tx.SameSpend final tx) {index : Nat} {inputs signed : List InputRecord}
    (hrow : IsSignedRow key tx index inputs signed)
    (hown : ∀ input ∈ inputs, IsOwn key.publicKey input)
    (hins : List.Forall₂ (fun i x => InputRecord.toInput mainLabel i = .ok x) signed
      (final.inputs.drop index)) :
    checkInputs Executor.standard final index signed = .ok () := by
  induction hrow with
  | nil => rfl
  | @cons index input bytes rest signed hopen _ ih =>
    -- The inputs from the index on are those that the rest of the row travels as.
    cases hdrop : final.inputs.drop index with
    | nil =>
      rw [hdrop] at hins
      cases hins
    | cons x xs =>
      rw [hdrop] at hins
      obtain _ | ⟨hx, hxs⟩ := hins
      have hget : final.inputs[index]?.map TxInput.unlocking = some ⟨bytes⟩ := by
        have hhead : (final.inputs.drop index)[0]? = some x := by rw [hdrop]; rfl
        rw [List.getElem?_drop, Nat.add_zero] at hhead
        rw [hhead, Option.map_some, unlocking_of_toInput hx]
      have htail : final.inputs.drop (index + 1) = xs := by
        rw [← List.drop_drop, hdrop]
        rfl
      obtain ⟨locking, value, hparse, hvalue, haccept⟩ :=
        standard_of_openInput htrust hsame (hown input List.mem_cons_self) hopen hget
      have hvalue' : ({ input with signature := Hex.encode bytes } : InputRecord).spentValue index =
          .ok value := hvalue
      have hrest := ih (fun i hi => hown i (List.mem_cons_of_mem input hi)) (by rw [htail]; exact hxs)
      simp only [checkInputs, hparse, hvalue', haccept, hrest]

theorem signWith_of_isOwn {key : PrivateKey} (htrust : key.IsTrusted) {t : TxRecord}
    {given : String} {tx : Tx} (htx : t.toTx given = .ok tx)
    (hown : ∀ input ∈ t.inputs, IsOwn key.publicKey input) (label : String) :
    (signWith Executor.standard key label t).result = .ok () := by
  obtain ⟨start, hstart, -⟩ := TxRecord.toTx_relabel htx label
  have hlen := TxRecord.length_inputs_of_toTx hstart
  have hresult := signInputs_of_isOwn htrust (.refl start) hown
    (show 0 + t.inputs.length ≤ start.inputs.length by omega)
  have hrow := isSignedRow_of_signInputs (.refl start) hresult
  simp only [signWith, hstart, hresult]
  -- The transaction that was signed gives the record its name and its size, and no more.
  generalize (signInputs key start 0 t.inputs).tx = last
  obtain ⟨final, hfinal, hsame, hins⟩ := @TxRecord.toTx_resigned label t
    { t with
      inputs := (signInputs key start 0 t.inputs).inputs
      hash := last.hash.display
      size := Int32.ofNat last.size }
    start hstart rfl rfl rfl hrow.isResigned mainLabel
  simp only [TxRecord.validate, hfinal]
  exact checkInputs_of_isSignedRow htrust hsame hrow hown hins

end Signing

end

/-! ## A wallet on which signing can be run

Signing on the curve cannot be evaluated in a proof for every digest that may come up, and that its
signatures verify is a fact of the curve which is not proved here. So the sample works with the
curve where it can be evaluated, the derivation of keys and the forms of the key, and where a
signature does not verify, a stand-in takes its place that is taken to verify (`sampleSuite`). -/

namespace Wallet

def samplePhrase : String :=
  "abandon abandon abandon abandon abandon abandon abandon abandon abandon abandon abandon about"

/-- Its seed, written down because stretching takes long. -/
def sampleSeed : Bytes :=
  [0x5e, 0xb0, 0x0b, 0xbd, 0xdc, 0xf0, 0x69, 0x08, 0x48, 0x89, 0xa8, 0xab, 0x91, 0x55,
    0x56, 0x81, 0x65, 0xf5, 0xc4, 0x53, 0xcc, 0xb8, 0x5e, 0x70, 0x81, 0x1a, 0xae, 0xd6,
    0xf6, 0xda, 0x5f, 0xc1, 0x9a, 0x5a, 0xc4, 0x0b, 0x38, 0x9c, 0xd3, 0x70, 0xd0, 0x86,
    0x20, 0x6d, 0xec, 0x8a, 0xa6, 0xc4, 0x3d, 0xae, 0xa6, 0x69, 0x0f, 0x20, 0xad, 0x3d,
    0x8d, 0x48, 0xb2, 0xd2, 0xce, 0x9e, 0x38, 0xe4]

def sampleKey : PrivateKey :=
  ⟨0xbc8397e78177fbcb54fd12ce50160d72d7b3b6a9e30c0edb97136b27b137076a, by decide, by decide⟩

/-- A signature that stands in where the curve makes none that verifies. -/
def standIn : Signature :=
  ⟨1, 1, by decide, by decide⟩

def keptSignature (made : Option Signature) (verifies : Signature → Bool) : Signature :=
  match made with
  | some s => if verifies s then s else standIn
  | none => standIn

theorem verifies_keptSignature (made : Option Signature) (verifies : Signature → Bool) :
    (verifies (keptSignature made verifies) || keptSignature made verifies == standIn) = true := by
  cases made with
  | none => rw [keptSignature, beq_self_eq_true, Bool.or_true]
  | some s =>
    rw [keptSignature]
    by_cases hs : verifies s = true
    · rw [if_pos hs, hs, Bool.true_or]
    · rw [if_neg hs, beq_self_eq_true, Bool.or_true]

/-- The operations of the curve, with the stand-in where signing would not keep what is taken on
trust of it, and with the seed of the phrase. -/
@[reducible] def sampleSuite : KeySuite where
  publicKey := Curve.secp256k1.publicKey
  shift := Curve.secp256k1.shift
  readPoint := Curve.secp256k1.readPoint
  sign k digest :=
    some (keptSignature (Curve.sign k digest) (Curve.verify (Curve.secp256k1.publicKey k) digest))
  verify k digest s := Curve.verify k digest s || s == standIn
  stretch phrase :=
    if phrase = Text.utf8 samplePhrase then sampleSeed else Curve.secp256k1.stretch phrase

def samplePoint : PublicKey :=
  ⟨86778272423133203088071050041266621730316450308689386086522567066467706066580,
    94333093091994315532105029585500572963766491178297189857297771766162745318093⟩

theorem publicKey_sampleKey : @PrivateKey.publicKey sampleSuite sampleKey = samplePoint := by
  decide +kernel

theorem isTrusted_sampleKey : @PrivateKey.IsTrusted sampleSuite sampleKey := by
  have hcompressed : Curve.readPoint samplePoint.compressed = some samplePoint := by
    decide +kernel
  have huncompressed : Curve.readPoint samplePoint.uncompressed = some samplePoint := by
    decide +kernel
  refine @PrivateKey.IsTrusted.mk sampleSuite sampleKey
    (fun _ _ => ⟨_, rfl, verifies_keptSignature _ _⟩) ?_ ?_
  · rw [publicKey_sampleKey]
    exact hcompressed
  · rw [publicKey_sampleKey]
    exact huncompressed

theorem sampleSuite_derives :
    (@deriveAddress sampleSuite samplePhrase .standard).toOption.map
        (fun a => (a.text, a.key.privateKey?)) =
      some ("bitcoincash:qqquxg6tnz7ve6a9kjhy9kaxxez62sztsyavcc2wny", some sampleKey) := by
  decide +kernel

def sampleWallet : Wallet :=
  ⟨samplePhrase, .standard, "bitcoincash:qqquxg6tnz7ve6a9kjhy9kaxxez62sztsyavcc2wny"⟩

theorem sampleWallet_eq_ok : @make sampleSuite [] samplePhrase .standard = .ok sampleWallet ∧
    @signingKey sampleSuite samplePhrase .standard = .ok sampleKey := by
  have hphrase : phraseOr [] samplePhrase = samplePhrase := by decide +kernel
  have hsample := sampleSuite_derives
  cases hderive : @deriveAddress sampleSuite samplePhrase .standard with
  | error e =>
    rw [hderive] at hsample
    cases hsample
  | ok a =>
    rw [hderive] at hsample
    have htext : a.text = sampleWallet.address := congrArg Prod.fst (Option.some.inj hsample)
    have hkey : a.key.privateKey? = some sampleKey := congrArg Prod.snd (Option.some.inj hsample)
    have haddress : (@deriveAddress sampleSuite samplePhrase .standard).map AccountAddress.text =
        .ok sampleWallet.address := by
      rw [hderive, ← htext]
      rfl
    exact ⟨(@make_eq_ok_iff sampleSuite _ _ _ _).mpr ⟨hphrase.symm, rfl, haddress⟩,
      @signingKey_of_deriveAddress sampleSuite _ _ _ _ hderive hkey⟩

def sampleInput (locking : Script) : InputRecord :=
  ⟨TxInput.finalSequence, 1000, "01", 0, locking.toHex, "", none⟩

theorem toInput_sampleInput (locking : Script) :
    ∃ x, (sampleInput locking).toInput mainLabel = .ok x := by
  obtain ⟨h, hh⟩ : ∃ h, Hash256.parse "01" = .ok h := ⟨_, rfl⟩
  exact ⟨_, InputRecord.toInput_eq_ok_iff.mpr ⟨.empty, h, rfl, hh, rfl⟩⟩

end Wallet

end CashWallet
