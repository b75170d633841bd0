import CashWallet.Proofs.Script.Acceptance
import CashWallet.Script.LockClass

/-!
# `CashWallet/Proofs/Script/Payer.lean` — the payer that a spend shows is the payee that it spends

Whoever looks at a spend takes the second piece of its unlocking script that has data for the key
(`Script.payer?`). The executor does not look for data: it counts every piece, and one without data
counts as empty. The two go apart on scripts such as a signature, an opcode and a key, which the
executor refuses for their three pieces.

They meet where it matters. A signature has at least the byte for its type, and no key is read from
nothing, so that **in a spend that opens the lock to the hash of a key both pieces have data**, and
the address that is shown is the one that was paid (`Executor.payer_of_standard`).

The lock asks for a key with its hash, and the address that is shown is made from the hash of the
key that was found. Nothing is assumed of the hash: it is taken of the same bytes on both sides.
-/

set_option autoImplicit false

namespace CashWallet

/-! ## Pieces with data -/

namespace Chunk

theorem data?_of_content_ne_nil {c : Chunk} (h : c.content ≠ []) : c.data? = some c.content := by
  cases c with
  | push => rfl
  | code => exact absurd rfl h
  | tail => rfl

/-- Where no piece is empty, none is passed over. -/
theorem filterMap_data? {chunks : List Chunk} (h : ∀ part ∈ chunks.map content, part ≠ []) :
    chunks.filterMap data? = chunks.map content := by
  induction chunks with
  | nil => rfl
  | cons c chunks ih =>
    rw [List.map_cons, List.forall_mem_cons] at h
    obtain ⟨hc, hrest⟩ := h
    rw [List.filterMap_cons_some (data?_of_content_ne_nil hc), ih hrest, List.map_cons]

end Chunk

namespace Script

/-- The key of a script of two parts, neither of them empty, is the second. -/
theorem payer?_of_parts {unlocking : Script} {chunks : List Chunk} {signature key : Bytes}
    (hchunks : unlocking.chunks = .ok chunks) (hparts : chunks.map Chunk.content = [signature, key])
    (hsignature : signature ≠ []) (hkey : key ≠ []) (label : String) :
    unlocking.payer? label = some (.ofKeyBytes label key) := by
  have hnone : ∀ part ∈ chunks.map Chunk.content, part ≠ [] := by
    rw [hparts]
    exact List.forall_mem_cons.mpr ⟨hsignature, List.forall_mem_singleton.mpr hkey⟩
  have hdata : chunks.filterMap Chunk.data? = [signature, key] :=
    (Chunk.filterMap_data? hnone).trans hparts
  obtain ⟨b, rest, rfl⟩ := List.exists_cons_of_ne_nil hkey
  simp only [payer?, hchunks, hdata]
  rfl

/-- The lock to the hash of a key pays to the address of the key alone. -/
theorem payees_of_keyHash {locking : Script} {key : Bytes} (hlock : locking.classify = .pubKeyHash)
    (hhash : Digest.hash160 key = locking.bytes.extract 3 23) (label : String) :
    locking.payees label = [.ofKeyBytes label key] := by
  have hat : locking.hashAt? 3 = some (.ofContent key) := by
    have hbytes : (locking.bytes.drop 3).take 20 = Digest.hash160 key := hhash.symm
    rw [hashAt?, hbytes, Hash160.ofBytes?, dif_pos (Digest.length_hash160 key)]
    rfl
  simp only [payees, hlock, hat]
  rfl

end Script

/-! ## Accepted spends -/

section

variable [KeySuite]

theorem PublicKey.ne_nil_of_ofBytes? {b : Bytes} {k : PublicKey} (h : ofBytes? b = .ok k) :
    b ≠ [] := by
  rintro rfl
  cases h

/-- Neither a signature of a spend nor its key is empty. -/
theorem SpendContext.Signs.ne_nil {tx : SpendContext} {index : Nat} {locking : Script}
    {value : UInt64} {flags : VerifyFlags} {signature key : Bytes}
    (h : tx.Signs index locking value flags signature key) : signature ≠ [] ∧ key ≠ [] := by
  obtain ⟨-, -, -, hkey, -, -⟩ := h
  exact ⟨List.concat_ne_nil _ _, PublicKey.ne_nil_of_ofBytes? hkey⟩

/-- **The payer that an accepted spend shows is the payee that it spends**: under every label the
lock to the hash of a key pays to a single address, and the unlocking script shows that address,
whatever the rules were and however the signature and the key are pushed. -/
theorem Executor.payer_of_standard (tx : SpendContext) (index : Nat) (locking : Script)
    (value : UInt64) (flags : VerifyFlags) (label : String) (hlock : locking.classify = .pubKeyHash)
    (haccept : standard locking tx index value flags = .ok ()) :
    ∃ unlocking address, tx.unlocking? index = some unlocking ∧
      locking.payees label = [address] ∧ unlocking.payer? label = some address := by
  obtain @⟨unlocking, chunks, signature, key, hinput, hchunks, -, htakes, hsigns⟩ :=
    standard_eq_ok_iff_spends.mp haccept
  obtain ⟨hsignature, hkey⟩ := hsigns.ne_nil
  generalize hparts : chunks.map Chunk.content = parts at htakes
  cases htakes with
  | keyHash _ hhash =>
    exact ⟨unlocking, .ofKeyBytes label key, hinput, Script.payees_of_keyHash hlock hhash label,
      Script.payer?_of_parts hchunks hparts hsignature hkey label⟩
  | key hother =>
    -- A lock has one shape.
    rw [hlock] at hother
    cases hother

end

/-- Pushes the signature of the sample spend and its key with lengths in fields of their own, of one
byte and of two. -/
def sampleWideUnlocking : Script :=
  ⟨Opcode.pushData1 :: 72 :: (sampleSignature.toDer ++ HashType.allForkId.toUInt8 ::
    Opcode.pushData2 :: 33 :: 0 :: sampleOwner.compressed)⟩

/-- The sample spend with its signature and its key pushed in the wider forms. -/
def sampleWideSpend : Tx :=
  .build mainLabel 2 [.derive mainLabel .zero 0 sampleWideUnlocking TxInput.finalSequence] [] 0

theorem Executor.payer_of_standard_widePushes :
    (Script.lockToKeyHash sampleOwner.hash160).classify = .pubKeyHash ∧
      standard (.lockToKeyHash sampleOwner.hash160) sampleWideSpend.spendContext 0 5000 .standard =
        .ok () ∧
      ∃ address, (Script.lockToKeyHash sampleOwner.hash160).payees testLabel = [address] ∧
        sampleWideUnlocking.payer? testLabel = some address := by
  have hlock : (Script.lockToKeyHash sampleOwner.hash160).classify = .pubKeyHash := by
    decide +kernel
  have haccept : standard (.lockToKeyHash sampleOwner.hash160) sampleWideSpend.spendContext 0 5000
      .standard = .ok () := by
    decide +kernel
  obtain ⟨unlocking, address, hinput, hpayee, hpayer⟩ :=
    payer_of_standard sampleWideSpend.spendContext 0 _ 5000 .standard testLabel hlock haccept
  obtain rfl : sampleWideUnlocking = unlocking := Option.some.inj hinput
  exact ⟨hlock, haccept, address, hpayee, hpayer⟩

end CashWallet
