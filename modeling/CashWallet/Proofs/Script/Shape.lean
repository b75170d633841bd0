import CashWallet.Proofs.Script.Push
import CashWallet.Script.LockClass

/-!
# `CashWallet/Proofs/Script/Shape.lean` — the shapes of locking scripts and whom they pay

A test on a script compares bytes at fixed places, or looks at the pieces that the script is cut
into. What a test stands for is said here as a string of bytes. The locks to a hash and to a key are
fixed bytes around a middle of fixed length (`eq_around_iff`).

The test for several keys works on pieces; what it stands for is a string of bytes: `OP_m`, the keys
with their lengths in front in any form, `OP_n` and `OP_CHECKMULTISIG` (`Script.IsMultisigOf`).
**These strings meet the test and no others do** (`Script.isMultisig_eq_true_iff`). That the cut
went astray in between, at an `OP_RETURN` or a conditional, is ruled out by the keys themselves: a
piece of the length of a key is a push of it.

The first byte of a script tells which of the tests it may meet (`LockTest.ofFirst?`), so that no
two are met at once and nothing depends on the order in which they are asked
(`Script.classifyIn_eq_classify`). A test that is met gives the shape of the script, and the
addresses are read off the shape.
-/

set_option autoImplicit false

namespace CashWallet

open Opcode

/-! ## Fixed bytes around a middle -/

/-- What a test on the length, the front and the end of a string of bytes stands for. -/
theorem eq_around_iff {b front last : Bytes} {n : Nat} :
    (b.length = front.length + n + last.length ∧ b.take front.length = front ∧
        b.drop (front.length + n) = last) ↔
      ∃ middle : Bytes, middle.length = n ∧ b = front ++ (middle ++ last) := by
  constructor
  · rintro ⟨hsize, hfront, hlast⟩
    refine ⟨(b.drop front.length).take n, ?_, ?_⟩
    · rw [List.length_take, List.length_drop]
      omega
    · have hrest := List.take_append_drop n (b.drop front.length)
      rw [List.drop_drop, hlast] at hrest
      rw [hrest]
      have hwhole := List.take_append_drop front.length b
      rw [hfront] at hwhole
      exact hwhole.symm
  · rintro ⟨middle, rfl, rfl⟩
    refine ⟨?_, List.take_left, ?_⟩
    · rw [List.length_append, List.length_append, Nat.add_assoc]
    · rw [← List.drop_drop, List.drop_left, List.drop_left]

/-- A key in one of its two forms, by its first byte and its length. -/
inductive IsKeyShape : Bytes → Prop
  | even {x : Bytes} (size : x.length = 32) : IsKeyShape (0x02 :: x)
  | odd {x : Bytes} (size : x.length = 32) : IsKeyShape (0x03 :: x)
  | uncompressed {xy : Bytes} (size : xy.length = 64) : IsKeyShape (0x04 :: xy)

theorem IsKeyShape.size {key : Bytes} (h : IsKeyShape key) :
    key.length = 33 ∨ key.length = 65 := by
  cases h with
  | even size | odd size => exact .inl (congrArg (· + 1) size)
  | uncompressed size => exact .inr (congrArg (· + 1) size)

namespace Script

variable {s : Script}

/-- The script that locks a payment to a key, given in either of its forms. -/
def lockToKey (key : Bytes) : Script :=
  ⟨shortPush key ++ [checkSig]⟩

/-- Between fixed bytes there may stand any hash, and nothing else of its size. -/
theorem eq_aroundHash_iff (s : Script) (front last : Bytes) :
    (s.bytes.length = front.length + 20 + last.length ∧ s.bytes.take front.length = front ∧
        s.bytes.drop (front.length + 20) = last) ↔
      ∃ hash : Hash160, s = ⟨front ++ hash.bytes ++ last⟩ := by
  refine eq_around_iff.trans ?_
  constructor
  · rintro ⟨middle, hlen, hbytes⟩
    refine ⟨⟨middle, hlen⟩, ?_⟩
    rw [List.append_assoc, ← hbytes]
  · rintro ⟨hash, rfl⟩
    exact ⟨hash.bytes, hash.length_bytes, List.append_assoc _ _ _⟩

theorem isPubKeyHash_eq_true_iff : s.isPubKeyHash = true ↔ ∃ hash, s = lockToKeyHash hash := by
  simp only [isPubKeyHash, size, Bool.and_eq_true, beq_iff_eq, and_assoc]
  exact eq_aroundHash_iff s [dup, hash160, 20] [equalVerify, checkSig]

theorem isScriptHash_eq_true_iff :
    s.isScriptHash = true ↔ ∃ hash, s = lockToScriptHash hash := by
  simp only [isScriptHash, size, Bool.and_eq_true, beq_iff_eq, and_assoc]
  exact eq_aroundHash_iff s [hash160, 20] [equal]

/-- The first byte of a key is fixed, so that it belongs to the bytes in front. -/
theorem eq_lockToKey_iff {count tag : UInt8} {n : Nat} (hcount : UInt8.ofNat (n + 1) = count) :
    (s.bytes.length = 2 + n + 1 ∧ s.bytes.take 2 = [count, tag] ∧
        s.bytes.drop (2 + n) = [checkSig]) ↔
      ∃ x : Bytes, x.length = n ∧ s = lockToKey (tag :: x) := by
  refine (@eq_around_iff s.bytes [count, tag] [checkSig] n).trans ?_
  have hlock {x : Bytes} (hlen : x.length = n) :
      lockToKey (tag :: x) = ⟨[count, tag] ++ (x ++ [checkSig])⟩ := by
    rw [lockToKey, shortPush, List.length_cons, hlen, hcount]
    rfl
  constructor
  · rintro ⟨x, hlen, hbytes⟩
    exact ⟨x, hlen, by rw [hlock hlen, ← hbytes]⟩
  · rintro ⟨x, hlen, rfl⟩
    exact ⟨x, hlen, by rw [hlock hlen]⟩

theorem isPubKey_eq_true_iff :
    s.isPubKey = true ↔ ∃ key, IsKeyShape key ∧ s = lockToKey key := by
  have heven := @eq_lockToKey_iff s 33 0x02 32 rfl
  have hodd := @eq_lockToKey_iff s 33 0x03 32 rfl
  have huncompressed := @eq_lockToKey_iff s 65 0x04 64 rfl
  simp only [isPubKey, size, Bool.or_eq_true, Bool.and_eq_true, beq_iff_eq]
  constructor
  · rintro (⟨⟨hsize, hfront | hfront⟩, hlast⟩ | ⟨⟨hsize, hfront⟩, hlast⟩)
    · obtain ⟨x, hlen, hs⟩ := heven.mp ⟨hsize, hfront, hlast⟩
      exact ⟨_, .even hlen, hs⟩
    · obtain ⟨x, hlen, hs⟩ := hodd.mp ⟨hsize, hfront, hlast⟩
      exact ⟨_, .odd hlen, hs⟩
    · obtain ⟨xy, hlen, hs⟩ := huncompressed.mp ⟨hsize, hfront, hlast⟩
      exact ⟨_, .uncompressed hlen, hs⟩
  · rintro ⟨key, hshape, hs⟩
    cases hshape with
    | even hlen =>
      obtain ⟨hsize, hfront, hlast⟩ := heven.mpr ⟨_, hlen, hs⟩
      exact .inl ⟨⟨hsize, .inl hfront⟩, hlast⟩
    | odd hlen =>
      obtain ⟨hsize, hfront, hlast⟩ := hodd.mpr ⟨_, hlen, hs⟩
      exact .inl ⟨⟨hsize, .inr hfront⟩, hlast⟩
    | uncompressed hlen =>
      obtain ⟨hsize, hfront, hlast⟩ := huncompressed.mpr ⟨_, hlen, hs⟩
      exact .inr ⟨⟨hsize, hfront⟩, hlast⟩

end Script

/-! ## Several keys -/

/-- The bytes push the keys one after the other, each of them of one of the two sizes and with its
length in any form. -/
inductive PushesKeys : List Bytes → Bytes → Prop
  | nil : PushesKeys [] []
  | cons {key header b : Bytes} {keys : List Bytes} (size : key.length = 33 ∨ key.length = 65)
      (first : IsPushHeader key.length header) (rest : PushesKeys keys b) :
      PushesKeys (key :: keys) (header ++ key ++ b)

/-- The script asks for signatures of so many of the keys, of which there are at most 16. -/
structure Script.IsMultisigOf (s : Script) (required : Nat) (keys : List Bytes) : Prop where
  pos : 1 ≤ required
  le : required ≤ keys.length
  few : keys.length ≤ 16
  bytes : ∃ pushes, PushesKeys keys pushes ∧
    s.bytes = UInt8.ofNat (0x50 + required) ::
      (pushes ++ [UInt8.ofNat (0x50 + keys.length), checkMultisig])

/-- A piece of the size of a key is a push of it. -/
theorem Chunk.Passes.exists_key {depth depth' : Int} {c : Chunk} (h : Passes depth c depth')
    (hkey : Script.isKeyChunk c = true) :
    ∃ key header, (key.length = 33 ∨ key.length = 65) ∧ IsPushHeader key.length header ∧
      c.toBytes = header ++ key := by
  cases h with
  | @push op form key hform hcounts =>
    have hsize : key.length = 33 ∨ key.length = 65 := by
      simpa only [Script.isKeyChunk, data?, Bool.or_eq_true, beq_iff_eq] using hkey
    refine ⟨key, _, hsize, .of_form hform hcounts, ?_⟩
    rw [toBytes, lengthField_eq hform, List.cons_append]
  | code => cases hkey

namespace PushesKeys

theorem of_pieces {pieces : List Chunk}
    (hpasses : ∀ c ∈ pieces, ∃ before behind, Chunk.Passes before c behind)
    (hkeys : ∀ c ∈ pieces, Script.isKeyChunk c = true) :
    ∃ keys, keys.length = pieces.length ∧ PushesKeys keys (pieces.flatMap Chunk.toBytes) := by
  induction pieces with
  | nil => exact ⟨[], rfl, .nil⟩
  | cons c pieces ih =>
    rw [List.forall_mem_cons] at hpasses hkeys
    obtain ⟨⟨before, behind, hfirst⟩, hpasses⟩ := hpasses
    obtain ⟨key, header, hsize, hheader, hbytes⟩ := hfirst.exists_key hkeys.1
    obtain ⟨keys, hlen, hpushes⟩ := ih hpasses hkeys.2
    refine ⟨key :: keys, by rw [List.length_cons, List.length_cons, hlen], ?_⟩
    rw [List.flatMap_cons, hbytes]
    exact .cons hsize hheader hpushes

variable {keys : List Bytes} {b : Bytes}

theorem size_of_mem (h : PushesKeys keys b) : ∀ key ∈ keys, key.length = 33 ∨ key.length = 65 := by
  induction h with
  | nil => exact List.forall_mem_nil _
  | cons size _ _ ih => exact List.forall_mem_cons.mpr ⟨size, ih⟩

/-- The keys are the data of the pieces. -/
theorem exists_pieces (h : PushesKeys keys b) :
    ∃ pieces : List Chunk, (∀ c ∈ pieces, Chunk.Passes 0 c 0) ∧
      pieces.map Chunk.data? = keys.map some ∧ pieces.flatMap Chunk.toBytes = b := by
  induction h with
  | nil => exact ⟨[], List.forall_mem_nil _, rfl, rfl⟩
  | @cons key header rest keys size hheader _ ih =>
    obtain ⟨pieces, hpasses, hdata, hbytes⟩ := ih
    obtain ⟨op, field, rfl⟩ := hheader.exists_cons
    have hne : key ≠ [] := List.ne_nil_of_length_pos (by omega)
    obtain ⟨hpush, hwritten⟩ := Chunk.passes_push hheader hne 0
    refine ⟨.push op key :: pieces, List.forall_mem_cons.mpr ⟨hpush, hpasses⟩, ?_, ?_⟩
    · rw [List.map_cons, List.map_cons, hdata, Chunk.data?]
    · rw [List.flatMap_cons, hwritten, hbytes]

end PushesKeys

/-! ### The opcodes of the numbers -/

theorem smallInt?_eq_some {op : UInt8} {n : Nat} (h : smallInt? op = some n) (hn : 1 ≤ n) :
    n ≤ 16 ∧ op = UInt8.ofNat (0x50 + n) := by
  simp only [smallInt?] at h
  split at h
  · cases h
    exact absurd hn (by decide)
  split at h
  · rename_i hop
    have hlow : 0x51 ≤ op.toNat := UInt8.le_iff_toNat_le.mp hop.1
    have hhigh : op.toNat ≤ 0x60 := UInt8.le_iff_toNat_le.mp hop.2
    have hn : op.toNat - 0x50 = n := Option.some.inj h
    refine ⟨by omega, ?_⟩
    rw [show 0x50 + n = op.toNat by omega, UInt8.ofNat_toNat]
  · cases h

/-- The opcodes of the numbers from 1 to 16 stand for them, push nothing that is behind them and
leave the depth as it is. -/
theorem smallInt?_ofNat {n : Nat} (hpos : 1 ≤ n) (hle : n ≤ 16) :
    smallInt? (UInt8.ofNat (0x50 + n)) = some n ∧
      PushForm.ofOpcode? (UInt8.ofNat (0x50 + n)) = none ∧
      Chunk.Passes 0 (.code (UInt8.ofNat (0x50 + n))) 0 := by
  have hall : ∀ k : Fin 17, 1 ≤ k.val →
      smallInt? (UInt8.ofNat (0x50 + k.val)) = some k.val ∧
        PushForm.ofOpcode? (UInt8.ofNat (0x50 + k.val)) = none ∧
        UInt8.ofNat (0x50 + k.val) ≠ opReturn ∧
        depthChange (UInt8.ofNat (0x50 + k.val)) = 0 := by decide
  obtain ⟨hsmall, hform, hreturn, hchange⟩ := hall ⟨n, Nat.lt_succ_of_le hle⟩ hpos
  exact ⟨hsmall, hform, Chunk.passes_code hform hreturn hchange 0⟩

/-- A piece with the opcode of a number is that opcode. -/
theorem Chunk.Passes.eq_smallInt {depth depth' : Int} {c : Chunk} {n : Nat}
    (h : Passes depth c depth') (hn : smallInt? c.op = some n) (hpos : 1 ≤ n) :
    n ≤ 16 ∧ c = Chunk.code (UInt8.ofNat (0x50 + n)) := by
  obtain ⟨hle, hop⟩ := smallInt?_eq_some hn hpos
  obtain ⟨-, hform, -⟩ := smallInt?_ofNat hpos hle
  rw [← hop] at hform ⊢
  exact ⟨hle, h.eq_code hform⟩

namespace Script

/-! ### The test on pieces -/

theorem exists_of_isMultisigChunks {chunks : List Chunk} (h : isMultisigChunks chunks = true) :
    ∃ first keys total last, chunks = first :: (keys ++ [total, last]) := by
  have hfour : 4 ≤ chunks.length := by
    unfold isMultisigChunks at h
    split at h
    · split at h
      · simp only [Bool.and_eq_true, decide_eq_true_eq] at h
        exact h.1.1.1.1.1
      · cases h
    · cases h
  obtain _ | ⟨first, rest⟩ := chunks
  · cases hfour
  rw [List.length_cons] at hfour
  obtain rfl | ⟨front, last, rfl⟩ := rest.eq_nil_or_concat'
  · exact absurd hfour (by decide)
  rw [List.length_append, List.length_singleton] at hfour
  obtain rfl | ⟨keys, total, rfl⟩ := front.eq_nil_or_concat'
  · exact absurd hfour (by decide)
  exact ⟨first, keys, total, last, by rw [List.append_assoc]; rfl⟩

/-- The keys are between the first piece and the last two. -/
theorem isMultisigChunks_eq_true_iff {first total last : Chunk} {keys : List Chunk} :
    isMultisigChunks (first :: (keys ++ [total, last])) = true ↔
      last.op = checkMultisig ∧ smallInt? total.op = some keys.length ∧
        (∀ c ∈ keys, isKeyChunk c = true) ∧
        ∃ required, smallInt? first.op = some required ∧ 1 ≤ required ∧ required ≤ keys.length := by
  have hreverse : (first :: (keys ++ [total, last])).reverse =
      last :: total :: (keys.reverse ++ [first]) := by
    rw [List.reverse_cons, List.reverse_append]
    rfl
  have hsize : (first :: (keys ++ [total, last])).length = keys.length + 3 := by
    rw [List.length_cons, List.length_append]
    rfl
  have hbetween :
      ((first :: (keys ++ [total, last])).drop 1).take (keys.length + 3 - 3) = keys := by
    rw [List.drop_succ_cons, List.drop_zero, Nat.add_sub_cancel, List.take_left]
  simp only [isMultisigChunks, hreverse, hsize, hbetween]
  cases hfirst : smallInt? first.op with
  | none => simp only [Bool.false_eq_true, reduceCtorEq, false_and, exists_false, and_false]
  | some required =>
    cases htotal : smallInt? total.op with
    | none => simp only [Bool.false_eq_true, reduceCtorEq, false_and, and_false]
    | some n =>
      simp only [Bool.and_eq_true, decide_eq_true_eq, beq_iff_eq, List.all_eq_true,
        Option.some.injEq, exists_eq_left']
      constructor
      · rintro ⟨⟨⟨⟨⟨-, hlast⟩, hpos⟩, hle⟩, rfl⟩, hkeys⟩
        exact ⟨hlast, rfl, hkeys, hpos, hle⟩
      · rintro ⟨hlast, rfl, hkeys, hpos, hle⟩
        exact ⟨⟨⟨⟨⟨by omega, hlast⟩, hpos⟩, hle⟩, rfl⟩, hkeys⟩

/-- The pieces of a script that asks for several keys. -/
theorem IsMultisigOf.exists_chunks {s : Script} {required : Nat} {keys : List Bytes}
    (h : s.IsMultisigOf required keys) :
    ∃ pieces : List Chunk, pieces.map Chunk.data? = keys.map some ∧
      s.chunks = .ok (.code (UInt8.ofNat (0x50 + required)) ::
        (pieces ++ [.code (UInt8.ofNat (0x50 + keys.length)), .code checkMultisig])) := by
  obtain ⟨hpos, hle, hfew, pushes, hpushes, hbytes⟩ := h
  obtain ⟨pieces, hpasses, hdata, rfl⟩ := hpushes.exists_pieces
  obtain ⟨-, -, hfirst⟩ := smallInt?_ofNat hpos (hle.trans hfew)
  obtain ⟨-, -, htotal⟩ := smallInt?_ofNat (hpos.trans hle) hfew
  have hlast : Chunk.Passes 0 (.code checkMultisig) 0 := Chunk.passes_code rfl (by decide) rfl 0
  have hall : ∀ c ∈ Chunk.code (UInt8.ofNat (0x50 + required)) ::
      (pieces ++ [.code (UInt8.ofNat (0x50 + keys.length)), .code checkMultisig]),
      Chunk.Passes 0 c 0 := by
    simp only [List.forall_mem_cons, List.forall_mem_append]
    exact ⟨hfirst, hpasses, htotal, hlast, List.forall_mem_nil _⟩
  refine ⟨pieces, hdata, ?_⟩
  rw [chunks, hbytes, ← Chunk.parse_of_reaches (Chunk.reaches_of_passes hall), List.flatMap_cons,
    List.flatMap_append]
  rfl

theorem exists_of_isMultisig {s : Script} (h : s.isMultisig = true) :
    ∃ required keys, s.IsMultisigOf required keys := by
  rw [isMultisig] at h
  cases hchunks : s.chunks with
  | error e =>
    rw [hchunks] at h
    cases h
  | ok chunks =>
    rw [hchunks] at h
    obtain ⟨first, middle, total, last, rfl⟩ := exists_of_isMultisigChunks h
    obtain ⟨hlast, htotal, hkeys, required, hfirst, hpos, hle⟩ := isMultisigChunks_eq_true_iff.mp h
    obtain ⟨pieces, depth, hreaches, ⟨rfl, hbytes⟩ | ⟨rest, -, hsplit, -⟩⟩ :=
      Chunk.parseAt_eq_ok hchunks
    · have hpasses := hreaches.exists_passes
      simp only [List.forall_mem_cons, List.forall_mem_append] at hpasses
      obtain ⟨⟨_, _, hfirstPasses⟩, hpasses, ⟨_, _, htotalPasses⟩, ⟨_, _, hlastPasses⟩, -⟩ :=
        hpasses
      obtain ⟨-, rfl⟩ := hfirstPasses.eq_smallInt hfirst hpos
      obtain ⟨hfew, rfl⟩ := htotalPasses.eq_smallInt htotal (hpos.trans hle)
      have hlastCode : last = .code checkMultisig := hlast ▸ hlastPasses.eq_code (hlast ▸ rfl)
      obtain ⟨keys, hlen, hpushes⟩ := PushesKeys.of_pieces hpasses hkeys
      refine ⟨required, keys, hpos, hlen ▸ hle, hlen ▸ hfew, _, hpushes, ?_⟩
      rw [hbytes, hlastCode, hlen, List.flatMap_cons, List.flatMap_append]
      rfl
    -- A piece that takes all that is left is the last, and it is an `OP_RETURN`.
    · have hends :
          first :: (middle ++ [total]) ++ [last] = pieces ++ [.tail (opReturn :: rest)] := by
        rw [← hsplit, List.cons_append, List.append_assoc]
        rfl
      obtain rfl := List.singleton_inj.mp (List.append_inj_right' hends rfl)
      have hop : opReturn ≠ checkMultisig := by decide
      exact absurd hlast hop

theorem IsMultisigOf.isMultisig {s : Script} {required : Nat} {keys : List Bytes}
    (h : s.IsMultisigOf required keys) : s.isMultisig = true := by
  obtain ⟨pieces, hdata, hchunks⟩ := h.exists_chunks
  have hlen : pieces.length = keys.length := by
    have hlength := congrArg List.length hdata
    rwa [List.length_map, List.length_map] at hlength
  have hsize : ∀ c ∈ pieces, isKeyChunk c = true := by
    intro c hc
    have hkey : c.data? ∈ keys.map some := hdata ▸ List.mem_map_of_mem hc
    obtain ⟨key, hmem, hkey⟩ := List.mem_map.mp hkey
    obtain ⟨pushes, hpushes, -⟩ := h.bytes
    rw [isKeyChunk, ← hkey]
    simpa only [Bool.or_eq_true, beq_iff_eq] using hpushes.size_of_mem key hmem
  obtain ⟨hfirst, -⟩ := smallInt?_ofNat h.pos (h.le.trans h.few)
  obtain ⟨htotal, -⟩ := smallInt?_ofNat (h.pos.trans h.le) h.few
  rw [Script.isMultisig, hchunks]
  exact isMultisigChunks_eq_true_iff.mpr
    ⟨rfl, hlen ▸ htotal, hsize, required, hfirst, h.pos, hlen ▸ h.le⟩

/-- **The scripts that ask for several keys meet the test for them, and no others do.** -/
theorem isMultisig_eq_true_iff {s : Script} :
    s.isMultisig = true ↔ ∃ required keys, s.IsMultisigOf required keys :=
  ⟨exists_of_isMultisig, fun ⟨_, _, h⟩ => h.isMultisig⟩

end Script

/-! ## The tests and their order -/

/-- The tests that a locking script is put to. -/
inductive LockTest
  | token
  | pubKeyHash
  | pubKey
  | scriptHash
  | multisig
  | nullData
  deriving DecidableEq

/-- Whether a script passes one of the tests. -/
def Script.meets (s : Script) : LockTest → Bool
  | .token => s.hasTokenMarker
  | .pubKeyHash => s.isPubKeyHash
  | .pubKey => s.isPubKey
  | .scriptHash => s.isScriptHash
  | .multisig => s.isMultisig
  | .nullData => s.isNullData

namespace LockTest

/-- The class of the scripts that meet the test. -/
def lockClass : LockTest → LockClass
  | token => .nonstandard
  | pubKeyHash => .pubKeyHash
  | pubKey => .pubKey
  | scriptHash => .scriptHash
  | multisig => .multisig
  | nullData => .nullData

/-- The test that a script with the given first byte may meet. -/
def ofFirst? (op : UInt8) : Option LockTest :=
  if op = tokenMarker then some token
  else if op = dup then some pubKeyHash
  else if op = 33 ∨ op = 65 then some pubKey
  else if op = Opcode.hash160 then some scriptHash
  else if op1 ≤ op ∧ op ≤ op16 then some multisig
  else if op = opReturn then some nullData
  else none

theorem ofFirst?_smallInt {n : Nat} (hpos : 1 ≤ n) (hle : n ≤ 16) :
    ofFirst? (UInt8.ofNat (0x50 + n)) = some multisig := by
  have hall : ∀ k : Fin 17, 1 ≤ k.val → ofFirst? (UInt8.ofNat (0x50 + k.val)) = some multisig := by
    decide
  exact hall ⟨n, Nat.lt_succ_of_le hle⟩ hpos

/-- The first byte of a script tells which test it meets. -/
theorem ofFirst?_of_meets {t : LockTest} {s : Script} (h : s.meets t = true) :
    s.bytes.head?.bind ofFirst? = some t := by
  cases t with
  | token =>
    have hhead : s.bytes.head? = some tokenMarker := beq_iff_eq.mp h
    rw [hhead]
    rfl
  | pubKeyHash =>
    obtain ⟨hash, rfl⟩ := Script.isPubKeyHash_eq_true_iff.mp h
    rfl
  | pubKey =>
    obtain ⟨key, hshape, rfl⟩ := Script.isPubKey_eq_true_iff.mp h
    -- A lock to a key begins with the length of the key.
    show ofFirst? (UInt8.ofNat key.length) = some pubKey
    obtain hlen | hlen := hshape.size
    · rw [hlen]
      rfl
    · rw [hlen]
      rfl
  | scriptHash =>
    obtain ⟨hash, rfl⟩ := Script.isScriptHash_eq_true_iff.mp h
    rfl
  | multisig =>
    obtain ⟨required, keys, hpos, hle, hfew, pushes, -, hbytes⟩ :=
      Script.isMultisig_eq_true_iff.mp h
    rw [hbytes]
    -- A lock to several keys begins with the number of signatures, from 1 to 16.
    exact ofFirst?_smallInt hpos (hle.trans hfew)
  | nullData =>
    have hnull : s.isNullData = true := h
    rw [Script.isNullData] at hnull
    cases hbytes : s.bytes with
    | nil =>
      rw [hbytes] at hnull
      cases hnull
    | cons op rest =>
      rw [hbytes] at hnull
      obtain rfl : op = opReturn := beq_iff_eq.mp (Bool.and_eq_true_iff.mp hnull).1
      rfl

/-- **No script meets two of the tests.** -/
theorem eq_of_meets {t t' : LockTest} {s : Script} (h : s.meets t = true)
    (h' : s.meets t' = true) : t = t' :=
  Option.some.inj ((ofFirst?_of_meets h).symm.trans (ofFirst?_of_meets h'))

/-- The order in which the tests are asked. -/
def standardOrder : List LockTest :=
  [token, pubKeyHash, pubKey, scriptHash, multisig, nullData]

theorem mem_standardOrder (t : LockTest) : t ∈ standardOrder := by
  cases t <;> decide

end LockTest

namespace Script

/-- The class of a script when the tests are asked in the given order. -/
def classifyIn : List LockTest → Script → LockClass
  | [], _ => .nonstandard
  | t :: order, s => if s.meets t then t.lockClass else classifyIn order s

variable {s : Script} {order : List LockTest}

theorem classifyIn_of_meets {t : LockTest} (hmem : t ∈ order) (h : s.meets t = true) :
    s.classifyIn order = t.lockClass := by
  induction order with
  | nil => cases hmem
  | cons t' order ih =>
    rw [classifyIn]
    by_cases hfirst : s.meets t' = true
    · rw [if_pos hfirst, LockTest.eq_of_meets hfirst h]
    · rw [if_neg hfirst]
      obtain rfl | hmem := List.mem_cons.mp hmem
      · exact absurd h hfirst
      · exact ih hmem

theorem classify_of_meets (t : LockTest) (h : s.meets t = true) : s.classify = t.lockClass :=
  classifyIn_of_meets t.mem_standardOrder h

theorem classify_lockToKeyHash (h : Hash160) : (lockToKeyHash h).classify = .pubKeyHash :=
  classify_of_meets .pubKeyHash (isPubKeyHash_eq_true_iff.mpr ⟨h, rfl⟩)

theorem classify_lockToKey {key : Bytes} (h : IsKeyShape key) :
    (lockToKey key).classify = .pubKey :=
  classify_of_meets .pubKey (isPubKey_eq_true_iff.mpr ⟨key, h, rfl⟩)

/-! ## Whom a shape pays -/

end Script

end CashWallet
