import CashWallet.Curve.Secp256k1
import CashWallet.Script.Spend
import CashWallet.Transaction.Preimage
import Mathlib.Control.Monad.Basic

/-!
# `CashWallet/Proofs/Script/Acceptance.lean` — which spends the standard executor accepts

The executor asks its questions one after the other and stops at the first that goes wrong. What a
spend has to be is said here without the order: the unlocking script is cut into one or two pieces
that the lock takes for a signature and a key (`Script.Takes`), and the signature is one of the key
over the spend (`SpendContext.Signs`). **The executor accepts the spends that are valid in this
sense and no others** (`Executor.standard_eq_ok_iff`).

The executor is taken apart at two places. What it makes of the parts of an unlocking script is
named by itself (`Executor.openLock`), so that the questions in front of it, which only depend on
the unlocking script, are answered once (`Executor.standard_of_chunks`). And the questions about one
signature are followed in each direction: from the top to the only way through
(`Executor.signs_of_checkSignature`), and from the answers back to it
(`Executor.checkSignature_of_signs`).

A rule stands in these conditions only as something more to ask for, so that a spend which is valid
under some rules is valid under any part of them. That is a fact about the conditions alone and
needs no look at the executor (`SpendContext.Spends.of_has`).
-/

set_option autoImplicit false

namespace CashWallet

/-! ## Rules -/

namespace VerifyFlags

/-- A part of a part of some rules is a part of them. -/
theorem has_trans {a b c : VerifyFlags} (hab : a.has b = true) (hbc : b.has c = true) :
    a.has c = true := by
  have hab' : a.bits &&& b.bits = b.bits := eq_of_beq hab
  have hbc' : b.bits &&& c.bits = c.bits := eq_of_beq hbc
  have hac : a.bits &&& c.bits = c.bits := by
    calc a.bits &&& c.bits = a.bits &&& (b.bits &&& c.bits) := by rw [hbc']
      _ = (a.bits &&& b.bits) &&& c.bits := (UInt32.and_assoc ..).symm
      _ = c.bits := by rw [hab', hbc']
  exact beq_iff_eq.mpr hac

/-- A question goes wrong when a rule asks it and the answer is no. -/
theorem refuses_eq_false_iff {flags rule : VerifyFlags} {answer : Bool} :
    (flags.has rule && !answer) = false ↔ (flags.has rule = true → answer = true) := by
  rw [Bool.and_eq_false_imp, Bool.not_eq_false']

/-- What a rule asks for is asked for by the larger sets of rules too. -/
theorem imp_of_has {flags fewer rule : VerifyFlags} {p : Prop} (hfewer : flags.has fewer = true)
    (h : flags.has rule = true → p) : fewer.has rule = true → p :=
  fun hrule => h (has_trans hfewer hrule)

end VerifyFlags

namespace HashType

/-- The type of a signature is one of the known ones when the two marks that may be added are taken
off. -/
theorem isStrict_eq_true_iff {t : UInt32} :
    isStrict t = true ↔ t &&& ~~~(forkId ||| anyoneCanPay) ∈ [all, none, single] := by
  rw [isStrict]
  generalize t &&& ~~~(forkId ||| anyoneCanPay) = rest
  have hall : rest = all ↔ rest.toNat = 1 := UInt32.toNat_inj.symm
  have hnone : rest = none ↔ rest.toNat = 2 := UInt32.toNat_inj.symm
  have hsingle : rest = single ↔ rest.toNat = 3 := UInt32.toNat_inj.symm
  have hlow : (1 : UInt32) ≤ rest ↔ 1 ≤ rest.toNat := UInt32.le_iff_toNat_le
  have hhigh : rest ≤ 3 ↔ rest.toNat ≤ 3 := UInt32.le_iff_toNat_le
  simp only [Bool.and_eq_true, decide_eq_true_eq, List.mem_cons, List.not_mem_nil, or_false,
    hall, hnone, hsingle, hlow, hhigh]
  omega

theorem hasForkId_eq_true_iff {t : UInt32} : hasForkId t = true ↔ t &&& forkId ≠ 0 := by
  rw [hasForkId, bne_iff_ne]

end HashType

/-! ## What a valid spend is -/

/-- What a piece of an unlocking script leaves for the lock: its data, and nothing for an opcode
that stands alone. -/
def Chunk.content : Chunk → Bytes
  | push _ data => data
  | code _ => []
  | tail bytes => bytes

/-- The lock takes the pieces of an unlocking script for a signature and for a key. -/
inductive Script.Takes (locking : Script) : List Bytes → Bytes → Bytes → Prop
  | keyHash {signature key : Bytes} (lock : locking.classify = .pubKeyHash)
      (hash : Digest.hash160 key = locking.bytes.extract 3 23) :
      Takes locking [signature, key] signature key
  | key {signature : Bytes} (lock : locking.classify = .pubKey) :
      Takes locking [signature] signature locking.bytes.tail.dropLast

/-- The bytes are a signature of the spend under the key, with the type that it commits to behind
it. -/
inductive SpendContext.Signs [KeySuite] (tx : SpendContext) (index : Nat) (locking : Script)
    (value : UInt64) (flags : VerifyFlags) : Bytes → Bytes → Prop
  | intro {der key digest : Bytes} {type : UInt8} {signature : Signature} {publicKey : PublicKey}
      (strict : flags.has .strictEncoding = true →
        type.toUInt32 &&& ~~~(HashType.forkId ||| HashType.anyoneCanPay) ∈
          [HashType.all, HashType.none, HashType.single])
      (fork : flags.has .enableForkId = true → type.toUInt32 &&& HashType.forkId ≠ 0)
      (reads : Signature.ofDer? der = .ok signature)
      (readsKey : PublicKey.ofBytes? key = .ok publicKey)
      (hashes : tx.signatureHash index locking value type.toUInt32 = .ok digest)
      (verifies : signature.verify digest publicKey = true) :
      Signs tx index locking value flags (der ++ [type]) key

/-- **A valid spend**: the input is there, its unlocking script is made of pieces, which are pushes
if the rules ask for it, and what the lock takes for a signature is one of what it takes for the
key. -/
inductive SpendContext.Spends [KeySuite] (tx : SpendContext) (index : Nat) (locking : Script)
    (value : UInt64) (flags : VerifyFlags) : Prop
  | intro {unlocking : Script} {chunks : List Chunk} {signature key : Bytes}
      (input : tx.unlocking? index = some unlocking)
      (pieces : unlocking.chunks = .ok chunks)
      (pushes : flags.has .sigPushOnly = true → ∀ c ∈ chunks, c.isPush = true)
      (takes : locking.Takes (chunks.map Chunk.content) signature key)
      (signs : tx.Signs index locking value flags signature key)

/-! ## The questions of the executor -/

theorem Chunk.data?_getD (c : Chunk) : c.data?.getD [] = c.content := by
  cases c with
  | push => rfl
  | code => rfl
  | tail => rfl

theorem Script.inner_eq (s : Script) :
    (s.bytes.drop 1).take (s.size - 2) = s.bytes.tail.dropLast := by
  rw [List.drop_one, List.dropLast_eq_take, List.length_tail, Nat.sub_sub, Script.size]

section

variable [KeySuite] {tx : SpendContext} {index : Nat} {locking : Script} {value : UInt64}
  {flags : VerifyFlags}

namespace Executor

/-- A signature that passes every question is one of the key over the spend. -/
theorem signs_of_checkSignature {fullSignature key : Bytes}
    (h : checkSignature fullSignature key locking tx index value flags = .ok ()) :
    tx.Signs index locking value flags fullSignature key := by
  unfold checkSignature at h
  -- Each question is split off in the order in which it is asked.
  split at h
  · cases h
  rename_i type der hreverse
  have hfull : fullSignature = der.reverse ++ [type] := by
    rw [← List.reverse_cons, ← hreverse, List.reverse_reverse]
  simp only at h
  split at h
  · cases h
  rename_i hstrict
  split at h
  · cases h
  rename_i hfork
  split at h
  · cases h
  rename_i signature hread
  split at h
  · cases h
  rename_i publicKey hkey
  split at h
  · cases h
  rename_i digest hhash
  split at h
  · rename_i hverify
    have hstrict' := VerifyFlags.refuses_eq_false_iff.mp (Bool.eq_false_iff.mpr hstrict)
    have hfork' := VerifyFlags.refuses_eq_false_iff.mp (Bool.eq_false_iff.mpr hfork)
    rw [hfull]
    exact .intro (fun hrule => HashType.isStrict_eq_true_iff.mp (hstrict' hrule))
      (fun hrule => HashType.hasForkId_eq_true_iff.mp (hfork' hrule)) hread hkey hhash hverify
  · cases h

/-- No question goes wrong on a signature of the key over the spend. -/
theorem checkSignature_of_signs {fullSignature key : Bytes}
    (h : tx.Signs index locking value flags fullSignature key) :
    checkSignature fullSignature key locking tx index value flags = .ok () := by
  obtain @⟨der, key, digest, type, signature, publicKey, strict, fork, reads, readsKey, hashes,
    verifies⟩ := h
  have hreverse : (der ++ [type]).reverse = type :: der.reverse := List.reverse_concat
  have hstrict : (flags.has .strictEncoding && !HashType.isStrict type.toUInt32) = false :=
    VerifyFlags.refuses_eq_false_iff.mpr fun hrule =>
      HashType.isStrict_eq_true_iff.mpr (strict hrule)
  have hfork : (flags.has .enableForkId && !HashType.hasForkId type.toUInt32) = false :=
    VerifyFlags.refuses_eq_false_iff.mpr fun hrule => HashType.hasForkId_eq_true_iff.mpr (fork hrule)
  simp only [checkSignature, hreverse, hstrict, hfork, List.reverse_reverse, reads, readsKey,
    hashes, verifies, Bool.false_eq_true, if_false, if_true]

/-- What a lock makes of the parts that an unlocking script pushes. -/
def openLock (parts : List Bytes) (locking : Script) (tx : SpendContext) (index : Nat)
    (value : UInt64) (flags : VerifyFlags) : Except SpendError Unit :=
  match locking.classify with
  | .pubKeyHash =>
    match parts with
    | [signature, key] =>
      if Digest.hash160 key ≠ (locking.bytes.drop 3).take 20 then .error .keyHashMismatch
      else checkSignature signature key locking tx index value flags
    | _ => .error (.wrongPushCount 2 parts.length)
  | .pubKey =>
    match parts with
    | [signature] =>
      checkSignature signature ((locking.bytes.drop 1).take (locking.size - 2)) locking tx index
        value flags
    | _ => .error (.wrongPushCount 1 parts.length)
  | lock => .error (.unsupported lock)

/-- A lock opens to a signature and a key that it takes from the parts. -/
theorem openLock_eq_ok_iff {parts : List Bytes} :
    openLock parts locking tx index value flags = .ok () ↔
      ∃ signature key, locking.Takes parts signature key ∧
        tx.Signs index locking value flags signature key := by
  constructor
  · intro h
    unfold openLock at h
    split at h
    · rename_i hlock
      split at h
      · rename_i signature key
        split at h
        · cases h
        · rename_i hhash
          exact ⟨signature, key, .keyHash hlock (Decidable.not_not.mp hhash),
            signs_of_checkSignature h⟩
      · cases h
    · rename_i hlock
      split at h
      · rename_i signature
        rw [locking.inner_eq] at h
        exact ⟨signature, _, .key hlock, signs_of_checkSignature h⟩
      · cases h
    · cases h
  · rintro ⟨signature, key, htakes, hsigns⟩
    have hcheck := checkSignature_of_signs hsigns
    cases htakes with
    | keyHash hlock hhash =>
      simp only [openLock, hlock]
      rw [if_neg (fun hne => hne hhash), hcheck]
    | key hlock =>
      simp only [openLock, hlock, locking.inner_eq, hcheck]

/-- Past the questions about the unlocking script the lock alone decides. -/
theorem standard_of_chunks {unlocking : Script} {chunks : List Chunk}
    (hunlocking : tx.unlocking? index = some unlocking) (hchunks : unlocking.chunks = .ok chunks)
    (hpush : flags.has .sigPushOnly = true → ∀ c ∈ chunks, c.isPush = true) :
    standard locking tx index value flags =
      openLock (chunks.map Chunk.content) locking tx index value flags := by
  have hpasses : (flags.has .sigPushOnly && !chunks.all Chunk.isPush) = false :=
    VerifyFlags.refuses_eq_false_iff.mpr fun hrule => List.all_eq_true.mpr (hpush hrule)
  have hcontent : (fun c : Chunk => c.data?.getD []) = Chunk.content := funext Chunk.data?_getD
  simp only [standard, hunlocking, hchunks, hpasses, hcontent, Bool.false_eq_true, if_false]
  rfl

theorem standard_eq_ok_iff_spends :
    standard locking tx index value flags = .ok () ↔ tx.Spends index locking value flags := by
  constructor
  · intro h
    cases hunlocking : tx.unlocking? index with
    | none =>
      simp only [standard, hunlocking] at h
      cases h
    | some unlocking =>
      cases hchunks : unlocking.chunks with
      | error e =>
        simp only [standard, hunlocking, hchunks] at h
        cases h
      | ok chunks =>
        cases hpasses : flags.has .sigPushOnly && !chunks.all Chunk.isPush with
        | true =>
          simp only [standard, hunlocking, hchunks, hpasses, if_true] at h
          cases h
        | false =>
          have hpush : flags.has .sigPushOnly = true → ∀ c ∈ chunks, c.isPush = true :=
            fun hrule => List.all_eq_true.mp (VerifyFlags.refuses_eq_false_iff.mp hpasses hrule)
          rw [standard_of_chunks hunlocking hchunks hpush] at h
          obtain ⟨signature, key, htakes, hsigns⟩ := openLock_eq_ok_iff.mp h
          exact .intro hunlocking hchunks hpush htakes hsigns
  · rintro ⟨input, pieces, pushes, takes, signs⟩
    rw [standard_of_chunks input pieces pushes]
    exact openLock_eq_ok_iff.mpr ⟨_, _, takes, signs⟩

end Executor

/-! ## Fewer rules -/

theorem SpendContext.Signs.of_has {fewer : VerifyFlags} (hfewer : flags.has fewer = true)
    {signature key : Bytes} (h : tx.Signs index locking value flags signature key) :
    tx.Signs index locking value fewer signature key := by
  obtain ⟨strict, fork, reads, readsKey, hashes, verifies⟩ := h
  exact .intro (VerifyFlags.imp_of_has hfewer strict) (VerifyFlags.imp_of_has hfewer fork) reads
    readsKey hashes verifies

/-- What is valid under some rules is valid under a part of them. -/
theorem SpendContext.Spends.of_has {fewer : VerifyFlags} (hfewer : flags.has fewer = true)
    (h : tx.Spends index locking value flags) : tx.Spends index locking value fewer := by
  obtain ⟨input, pieces, pushes, takes, signs⟩ := h
  exact .intro input pieces (VerifyFlags.imp_of_has hfewer pushes) takes (signs.of_has hfewer)

/-- **The standard executor accepts the valid spends and no others**, and so it accepts under fewer
rules whatever it accepts under more. -/
theorem Executor.standard_eq_ok_iff (tx : SpendContext) (index : Nat) (locking : Script)
    (value : UInt64) (flags : VerifyFlags) :
    (standard locking tx index value flags = .ok () ↔ tx.Spends index locking value flags) ∧
      ∀ fewer, flags.has fewer = true → standard locking tx index value flags = .ok () →
        standard locking tx index value fewer = .ok () := by
  refine ⟨standard_eq_ok_iff_spends, fun fewer hfewer h => ?_⟩
  rw [standard_eq_ok_iff_spends] at h ⊢
  exact h.of_has hfewer

end

/-! ## A spend on the curve -/

/-- The key that belongs to the number one. -/
def sampleOwner : PublicKey :=
  ⟨0x79be667ef9dcbbac55a06295ce870b07029bfcdb2dce28d959f2815b16f81798,
    0x483ada7726a3c4655da4fbfc0e1108a8fd17b448a68554199c47d08ffb10d4b8⟩

def sampleSignature : Signature :=
  ⟨0xcce6c11de13305d0aa11cda1c540ae4bdfab28b6956e35f22d9f55d2b0270c98,
    0x49e98fc08d1caf4626e3d770db573386645ee4030937642fb89a5c91158412ad, by decide, by decide⟩

/-- Pushes the signature with its type, in 72 bytes, and the key, in 33. -/
def sampleUnlocking : Script :=
  ⟨72 :: (sampleSignature.toDer ++ HashType.allForkId.toUInt8 :: 33 :: sampleOwner.compressed)⟩

def sampleSpend : Tx :=
  .build mainLabel 2 [.derive mainLabel .zero 0 sampleUnlocking TxInput.finalSequence] [] 0

theorem Executor.standard_eq_ok_iff_sample :
    sampleSpend.spendContext.Spends 0 (.lockToKeyHash sampleOwner.hash160) 5000 .standard ∧
      VerifyFlags.standard.has .enableForkId = true ∧
      standard (.lockToKeyHash sampleOwner.hash160) sampleSpend.spendContext 0 5000 .enableForkId =
        .ok () := by
  have hspend := standard_eq_ok_iff sampleSpend.spendContext 0 (.lockToKeyHash sampleOwner.hash160)
    5000 .standard
  have haccept : standard (.lockToKeyHash sampleOwner.hash160) sampleSpend.spendContext 0 5000
      .standard = .ok () := by
    decide +kernel
  have hfewer : VerifyFlags.standard.has .enableForkId = true := by decide
  exact ⟨hspend.1.mp haccept, hfewer, hspend.2 _ hfewer haccept⟩

end CashWallet
