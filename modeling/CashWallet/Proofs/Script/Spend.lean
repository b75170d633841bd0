import CashWallet.Proofs.Curve.Signature
import CashWallet.Proofs.Script.Acceptance
import CashWallet.Proofs.Script.Shape

/-!
# `CashWallet/Proofs/Script/Spend.lean` — what opens the locks that one signature opens

A lock to the hash of a key is opened by a signature and the key, a lock to a key by a signature
alone. The unlocking script is written as pushes and read as pieces, and the lock is recognised by
its shape; **when the pieces are the parts that were pushed and the shape is the one meant, all that
is left to ask of a valid spend is that the signature is one of the key**
(`Executor.standard_lockToKeyHash`, `Executor.standard_lockToKey`).

Everything pushed here is short enough for a single byte in front, which is the opcode and the
length at once: a key has 33 bytes, and a signature at most 72 and its type.

The other direction, from what the executor accepts to what was pushed, is not needed by whoever
signs and is part of the exact condition for a valid spend.
-/

set_option autoImplicit false

namespace CashWallet

/-! ## The shapes of the two locks -/

theorem PublicKey.isKeyShape_compressed (k : PublicKey) : IsKeyShape k.compressed := by
  have hsize : (Bytes.ofNatBE 32 k.x).length = 32 := Bytes.length_ofNatBE _ _
  rw [compressed]
  by_cases hy : k.y % 2 = 0
  · rw [if_pos hy]
    exact .even hsize
  · rw [if_neg hy]
    exact .odd hsize

theorem PublicKey.isKeyShape_uncompressed (k : PublicKey) : IsKeyShape k.uncompressed := by
  refine .uncompressed ?_
  rw [List.length_append, Bytes.length_ofNatBE, Bytes.length_ofNatBE]

namespace Script

/-- The hash stands where the executor looks for it. -/
theorem keyHash_lockToKeyHash (h : Hash160) :
    (lockToKeyHash h).bytes.extract 3 23 = h.bytes := by
  show (h.bytes ++ [Opcode.equalVerify, Opcode.checkSig]).take 20 = h.bytes
  rw [← h.length_bytes, List.take_left]

theorem key_lockToKey (key : Bytes) : (lockToKey key).bytes.tail.dropLast = key := by
  show (key ++ [Opcode.checkSig]).dropLast = key
  rw [List.dropLast_concat]

end Script

/-! ## Signatures and keys as pushes -/

/-- What is pushed for a signature: its bytes and the type that it commits to. -/
def Signature.withType (s : Signature) : Bytes :=
  s.toDer ++ [HashType.allForkId.toUInt8]

/-- A signature and its type are short enough for one byte in front. -/
theorem Signature.isShortPush_withType (s : Signature) : IsShortPush s.withType := by
  have hlen := s.length_toDer_le
  constructor
  · rw [withType, List.length_append]
    exact Nat.le_add_left _ _
  · rw [withType, List.length_append, List.length_singleton]
    omega

theorem PublicKey.isShortPush_compressed (k : PublicKey) : IsShortPush k.compressed := by
  rw [IsShortPush, k.length_compressed]
  decide

theorem isShortPush_of_mem_signature (s : Signature) :
    ∀ data ∈ [s.withType], IsShortPush data := by
  intro data hdata
  obtain rfl := List.mem_singleton.mp hdata
  exact s.isShortPush_withType

theorem isShortPush_of_mem_signatureAndKey (s : Signature) (k : PublicKey) :
    ∀ data ∈ [s.withType, k.compressed], IsShortPush data := by
  intro data hdata
  rcases List.mem_cons.mp hdata with rfl | hdata
  · exact s.isShortPush_withType
  · obtain rfl := List.mem_singleton.mp hdata
    exact k.isShortPush_compressed

section

variable [KeySuite] {tx : SpendContext} {index : Nat} {value : UInt64}

/-- The type of the signatures that wallets make passes the standard rules, so that only the
signature is left to check. -/
theorem SpendContext.signs_withType {s : Signature} {key digest : Bytes} {k : PublicKey}
    {locking : Script} (hkey : PublicKey.ofBytes? key = .ok k)
    (hdigest : tx.signatureHash index locking value HashType.allForkId = .ok digest)
    (hverify : s.verify digest k = true) :
    tx.Signs index locking value .standard s.withType key := by
  have hstrict : HashType.allForkId &&& ~~~(HashType.forkId ||| HashType.anyoneCanPay) ∈
      [HashType.all, HashType.none, HashType.single] := by decide
  have hfork : HashType.allForkId &&& HashType.forkId ≠ 0 := by decide
  exact .intro (fun _ => hstrict) (fun _ => hfork) s.ofDer?_toDer hkey hdigest hverify

/-- A script of short pushes spends when the lock takes what was pushed for a signature of the spend
and its key. -/
theorem SpendContext.spends_shortPushes {parts : List Bytes}
    (h : ∀ data ∈ parts, IsShortPush data) {locking : Script} {flags : VerifyFlags}
    {signature key : Bytes} (hunlocking : tx.unlocking? index = some ⟨parts.flatMap shortPush⟩)
    (htakes : locking.Takes parts signature key)
    (hsigns : tx.Signs index locking value flags signature key) :
    tx.Spends index locking value flags := by
  have hparts : (parts.map fun data => Chunk.push (UInt8.ofNat data.length) data).map
      Chunk.content = parts := by
    rw [List.map_map]
    exact List.map_id parts
  refine .intro hunlocking (Chunk.parse_shortPushes h) (fun _ c hc => ?_) ?_ hsigns
  · obtain ⟨data, hdata, rfl⟩ := List.mem_map.mp hc
    exact Chunk.isPush_shortPush (h data hdata)
  · rwa [hparts]

namespace Executor

/-- **A signature and its key open the lock to the hash of the key.** -/
theorem standard_lockToKeyHash {s : Signature} {k : PublicKey} {digest : Bytes}
    (hunlocking : tx.unlocking? index = some ⟨[s.withType, k.compressed].flatMap shortPush⟩)
    (hkey : PublicKey.ofBytes? k.compressed = .ok k)
    (hdigest : tx.signatureHash index (Script.lockToKeyHash k.hash160) value HashType.allForkId =
      .ok digest)
    (hverify : s.verify digest k = true) :
    standard (Script.lockToKeyHash k.hash160) tx index value .standard = .ok () := by
  have htakes : (Script.lockToKeyHash k.hash160).Takes [s.withType, k.compressed] s.withType
      k.compressed :=
    .keyHash (Script.classify_lockToKeyHash k.hash160)
      (Script.keyHash_lockToKeyHash k.hash160).symm
  have hsigns := SpendContext.signs_withType hkey hdigest hverify
  exact standard_eq_ok_iff_spends.mpr
    (SpendContext.spends_shortPushes (isShortPush_of_mem_signatureAndKey s k) hunlocking htakes hsigns)

/-- **A signature opens the lock to its key**, in either form of the key. -/
theorem standard_lockToKey {s : Signature} {k : PublicKey} {key digest : Bytes}
    (hclass : (Script.lockToKey key).classify = .pubKey)
    (hunlocking : tx.unlocking? index = some ⟨[s.withType].flatMap shortPush⟩)
    (hkey : PublicKey.ofBytes? key = .ok k)
    (hdigest : tx.signatureHash index (Script.lockToKey key) value HashType.allForkId = .ok digest)
    (hverify : s.verify digest k = true) :
    standard (Script.lockToKey key) tx index value .standard = .ok () := by
  have htakes : (Script.lockToKey key).Takes [s.withType] s.withType key := by
    have hkeyIn := @Script.Takes.key (Script.lockToKey key) s.withType hclass
    rwa [Script.key_lockToKey] at hkeyIn
  have hsigns := SpendContext.signs_withType hkey hdigest hverify
  exact standard_eq_ok_iff_spends.mpr
    (SpendContext.spends_shortPushes (isShortPush_of_mem_signature s) hunlocking htakes hsigns)

end Executor

end

end CashWallet
