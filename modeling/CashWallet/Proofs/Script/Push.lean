import CashWallet.Proofs.Script.Partition
import CashWallet.Script.Chunk
import Mathlib.Data.List.Forall2

/-!
# `CashWallet/Proofs/Script/Push.lean` — data is pushed in its shortest form and read back

A length stands in front of pushed data in one of four forms (`IsPushHeader`), and no two of them
are of the same length. **The form that is written is the one that no other form of the length is
shorter than** (`pushHeader_eq_ok_iff`), and a length that is refused has no form.

A push leaves the depth of conditionals as it is, so that a row of pushes is cut into what it was
written from, whatever the data looks like (`encodePushes_readBack`): data is passed over by its
length and never asked what it looks like.

Empty data is the one part without a push of its own. It is written as a length of zero, which is
the opcode `OP_0`, and it is read as that opcode with nothing behind it (`Chunk.IsPushOf`).

Signatures and keys are short enough for the first of the forms, in which one byte is the opcode and
the length at once; the last section says for these what their pushes are, so that no later module
has to ask for the form.
-/

set_option autoImplicit false

namespace CashWallet

/-! ## What stands in front of data -/

/-- The bytes in front of pushed data of the given length: the length itself as an opcode, or one of
three opcodes and the length in a field behind it. -/
inductive IsPushHeader (n : Nat) : Bytes → Prop
  | direct (fits : n ≤ 75) : IsPushHeader n [UInt8.ofNat n]
  | one (fits : n ≤ 0xff) : IsPushHeader n (Opcode.pushData1 :: Bytes.ofNatLE 1 n)
  | two (fits : n ≤ 0xffff) : IsPushHeader n (Opcode.pushData2 :: Bytes.ofNatLE 2 n)
  | four (fits : n ≤ 0xffffffff) : IsPushHeader n (Opcode.pushData4 :: Bytes.ofNatLE 4 n)

/-- No other form of the length is shorter. -/
def IsShortestPushHeader (n : Nat) (header : Bytes) : Prop :=
  IsPushHeader n header ∧ ∀ other, IsPushHeader n other → header.length ≤ other.length

namespace IsPushHeader

variable {n : Nat} {header other : Bytes}

/-- What the length of a form says of the length that it holds. -/
theorem length_bounds (h : IsPushHeader n header) :
    header.length = 1 ∧ n ≤ 75 ∨ header.length = 2 ∧ n ≤ 0xff ∨
      header.length = 3 ∧ n ≤ 0xffff ∨ header.length = 5 ∧ n ≤ 0xffffffff := by
  cases h with
  | direct fits => exact .inl ⟨rfl, fits⟩
  | one fits => exact .inr (.inl ⟨rfl, fits⟩)
  | two fits => exact .inr (.inr (.inl ⟨rfl, fits⟩))
  | four fits => exact .inr (.inr (.inr ⟨rfl, fits⟩))

/-- The forms of a length are told apart by how long they are. -/
theorem eq_of_length_eq (h : IsPushHeader n header) (h' : IsPushHeader n other)
    (hlen : header.length = other.length) : header = other := by
  cases h with
  | direct =>
    cases h' with
    | direct => rfl
    | one | two | four => cases hlen
  | one =>
    cases h' with
    | one => rfl
    | direct | two | four => cases hlen
  | two =>
    cases h' with
    | two => rfl
    | direct | one | four => cases hlen
  | four =>
    cases h' with
    | four => rfl
    | direct | one | two => cases hlen

/-- The forms are those of the pushes that are cut off from a script. -/
theorem exists_form {op : UInt8} {field : Bytes} (h : IsPushHeader n (op :: field)) (hn : 0 < n) :
    ∃ form, PushForm.ofOpcode? op = some form ∧ form.Counts n ∧ field = form.field n := by
  cases h with
  | direct fits =>
    have hop : (UInt8.ofNat n).toNat = n := by
      rw [UInt8.toNat_ofNat']
      omega
    have hform : PushForm.ofOpcode? (UInt8.ofNat n) = some (.direct n) := by
      simp only [PushForm.ofOpcode?, hop]
      exact if_pos ⟨hn, fits⟩
    exact ⟨.direct n, hform, rfl, rfl⟩
  | one fits => exact ⟨.counted 1, rfl, Nat.lt_succ_of_le fits, rfl⟩
  | two fits => exact ⟨.counted 2, rfl, Nat.lt_succ_of_le fits, rfl⟩
  | four fits => exact ⟨.counted 4, rfl, Nat.lt_succ_of_le fits, rfl⟩

theorem of_form {op : UInt8} {form : PushForm} (hform : PushForm.ofOpcode? op = some form)
    (hcounts : form.Counts n) : IsPushHeader n (op :: form.field n) := by
  obtain ⟨rfl, -, hop⟩ | ⟨rfl, rfl⟩ | ⟨rfl, rfl⟩ | ⟨rfl, rfl⟩ := PushForm.ofOpcode?_eq_some hform
  · obtain rfl : n = op.toNat := hcounts
    have hdirect := IsPushHeader.direct hop
    rwa [UInt8.ofNat_toNat] at hdirect
  · exact .one (Nat.le_of_lt_succ hcounts)
  · exact .two (Nat.le_of_lt_succ hcounts)
  · exact .four (Nat.le_of_lt_succ hcounts)

theorem exists_cons (h : IsPushHeader n header) : ∃ op field, header = op :: field := by
  cases h with
  | direct | one | two | four => exact ⟨_, _, rfl⟩

end IsPushHeader

/-! ## The shortest form -/

/-- A length that some form holds is written in a form that no other is shorter than. -/
theorem exists_pushHeader {n : Nat} (h : n ≤ 0xffffffff) :
    ∃ header, pushHeader n = .ok header ∧ IsShortestPushHeader n header := by
  -- Each form is the shortest for the lengths that the shorter forms do not hold.
  by_cases h₁ : n ≤ 75
  · refine ⟨[UInt8.ofNat n], if_pos h₁, .direct h₁, fun other hother => ?_⟩
    have hbounds := hother.length_bounds
    rw [List.length_singleton]
    omega
  by_cases h₂ : n ≤ 0xff
  · refine ⟨Opcode.pushData1 :: Bytes.ofNatLE 1 n, ?_, .one h₂, fun other hother => ?_⟩
    · rw [pushHeader, if_neg h₁, if_pos h₂]
    · have hbounds := hother.length_bounds
      rw [List.length_cons, Bytes.length_ofNatLE]
      omega
  by_cases h₃ : n ≤ 0xffff
  · refine ⟨Opcode.pushData2 :: Bytes.ofNatLE 2 n, ?_, .two h₃, fun other hother => ?_⟩
    · rw [pushHeader, if_neg h₁, if_neg h₂, if_pos h₃]
    · have hbounds := hother.length_bounds
      rw [List.length_cons, Bytes.length_ofNatLE]
      omega
  · refine ⟨Opcode.pushData4 :: Bytes.ofNatLE 4 n, ?_, .four h, fun other hother => ?_⟩
    · rw [pushHeader, if_neg h₁, if_neg h₂, if_neg h₃, if_pos h]
    · have hbounds := hother.length_bounds
      rw [List.length_cons, Bytes.length_ofNatLE]
      omega

/-- **What is written in front of data is the shortest form of its length.** -/
theorem pushHeader_eq_ok_iff {n : Nat} {header : Bytes} :
    pushHeader n = .ok header ↔ IsShortestPushHeader n header := by
  by_cases h : n ≤ 0xffffffff
  · obtain ⟨written, hwritten, hform, hshortest⟩ := exists_pushHeader h
    rw [hwritten]
    constructor
    · intro hsame
      cases hsame
      exact ⟨hform, hshortest⟩
    · rintro ⟨hheader, hleast⟩
      -- Two forms that are both shortest have one length, and so are the same.
      have hlen := Nat.le_antisymm (hshortest header hheader) (hleast written hform)
      rw [hform.eq_of_length_eq hheader hlen]
  · have hrefused : pushHeader n = .error .dataTooBig := by
      rw [pushHeader, if_neg (by omega), if_neg (by omega), if_neg (by omega), if_neg h]
    rw [hrefused]
    constructor
    · intro hsame
      cases hsame
    · rintro ⟨hheader, -⟩
      have hbounds := hheader.length_bounds
      omega

/-! ## Pushes as pieces -/

namespace Chunk

/-- The piece that pushes a part: it has the part for its data, or it is `OP_0` and has none if the
part is empty, and it is written with the shortest form of the length in front. -/
structure IsPushOf (part : Bytes) (c : Chunk) : Prop where
  isPush : c.isPush = true
  data : c.data? = if part = [] then none else some part
  empty : part = [] → c.op = Opcode.op0
  shortest : ∃ header, IsShortestPushHeader part.length header ∧ c.toBytes = header ++ part

theorem isPush_of_form {op : UInt8} {form : PushForm} (h : PushForm.ofOpcode? op = some form)
    (data : Bytes) : (push op data).isPush = true := by
  have hop : op ≤ Opcode.pushData4 := by
    obtain ⟨-, -, hop⟩ | ⟨-, rfl⟩ | ⟨-, rfl⟩ | ⟨-, rfl⟩ := PushForm.ofOpcode?_eq_some h
    · rw [UInt8.le_iff_toNat_le]
      exact Nat.le_trans hop (by decide)
    · decide
    · decide
    · decide
  exact decide_eq_true hop

theorem exists_isPushOf {part : Bytes} (h : part.length ≤ 0xffffffff) : ∃ c, IsPushOf part c := by
  by_cases hempty : part = []
  · subst hempty
    have hshortest : IsShortestPushHeader 0 [Opcode.op0] := pushHeader_eq_ok_iff.mp rfl
    exact ⟨code Opcode.op0, rfl, rfl, fun _ => rfl, _, hshortest, rfl⟩
  · obtain ⟨header, -, hheader, hshortest⟩ := exists_pushHeader h
    obtain ⟨op, field, rfl⟩ := hheader.exists_cons
    obtain ⟨form, hform, -, rfl⟩ := hheader.exists_form (List.length_pos_of_ne_nil hempty)
    refine ⟨push op part, isPush_of_form hform part, (if_neg hempty).symm,
      fun h => absurd h hempty, _, ⟨hheader, hshortest⟩, ?_⟩
    rw [toBytes, lengthField_eq hform, List.cons_append]

theorem exists_forall₂_isPushOf {parts : List Bytes}
    (h : ∀ part ∈ parts, part.length ≤ 0xffffffff) :
    ∃ chunks, List.Forall₂ IsPushOf parts chunks := by
  induction parts with
  | nil => exact ⟨[], .nil⟩
  | cons part parts ih =>
    rw [List.forall_mem_cons] at h
    obtain ⟨c, hc⟩ := exists_isPushOf h.1
    obtain ⟨chunks, hchunks⟩ := ih h.2
    exact ⟨c :: chunks, .cons hc hchunks⟩

/-- Data behind a form of its length is a piece, at any depth. -/
theorem passes_push {op : UInt8} {field data : Bytes} (h : IsPushHeader data.length (op :: field))
    (hdata : data ≠ []) (depth : Int) :
    Passes depth (push op data) depth ∧ (push op data).toBytes = op :: field ++ data := by
  obtain ⟨form, hform, hcounts, rfl⟩ := h.exists_form (List.length_pos_of_ne_nil hdata)
  refine ⟨.push hform hcounts, ?_⟩
  rw [toBytes, lengthField_eq hform, List.cons_append]

/-- What pushes a part may stand anywhere in a script, and leaves the depth as it is. -/
theorem IsPushOf.passes {part : Bytes} {c : Chunk} (h : IsPushOf part c) (depth : Int) :
    Passes depth c depth := by
  obtain ⟨hpush, hdata, hempty, header, ⟨hheader, -⟩, hbytes⟩ := h
  cases c with
  | push op data =>
    by_cases hpart : part = []
    · rw [if_pos hpart] at hdata
      cases hdata
    · rw [if_neg hpart] at hdata
      cases hdata
      have hwritten : op :: lengthField op part.length = header := by
        rw [toBytes, ← List.cons_append] at hbytes
        exact List.append_cancel_right hbytes
      exact (passes_push (hwritten ▸ hheader) hpart depth).1
  | code op =>
    by_cases hpart : part = []
    · obtain rfl : op = Opcode.op0 := hempty hpart
      exact passes_code rfl (by decide) rfl depth
    · rw [if_neg hpart] at hdata
      cases hdata
  | tail => cases hpush

/-- A row of pushes is cut into the pieces that push. -/
theorem parse_of_isPushOf {parts : List Bytes} {chunks : List Chunk}
    (h : List.Forall₂ IsPushOf parts chunks) : parse (chunks.flatMap toBytes) = .ok chunks := by
  have hreaches : Reaches 0 chunks 0 := by
    induction h with
    | nil => exact .nil
    | cons hc _ ih => exact .cons (hc.passes 0) ih
  exact parse_of_reaches hreaches

end Chunk

/-! ## Rows of pushes -/

variable {parts : List Bytes} {chunks : List Chunk}

theorem encodePushesFrom_of_isPushOf (h : List.Forall₂ Chunk.IsPushOf parts chunks) (i : Nat) :
    encodePushesFrom i parts = .ok (chunks.flatMap Chunk.toBytes) := by
  induction h generalizing i with
  | nil => rfl
  | cons hc _ ih =>
    obtain ⟨header, hshortest, hbytes⟩ := hc.shortest
    simp only [encodePushesFrom, pushHeader_eq_ok_iff.mpr hshortest, ih, List.flatMap_cons, hbytes]

theorem Script.foldlM_appendPush (h : List.Forall₂ Chunk.IsPushOf parts chunks) (s : Script) :
    parts.foldlM appendPush s = .ok ⟨s.bytes ++ chunks.flatMap Chunk.toBytes⟩ := by
  induction h generalizing s with
  | nil =>
    rw [List.flatMap_nil, List.append_nil]
    rfl
  | @cons part c _ _ hc _ ih =>
    obtain ⟨header, hshortest, hbytes⟩ := hc.shortest
    have happend : appendPush s part = .ok ⟨s.bytes ++ header ++ part⟩ := by
      rw [appendPush, pushHeader_eq_ok_iff.mpr hshortest]
    rw [List.foldlM_cons, happend, List.flatMap_cons, hbytes, ← List.append_assoc,
      ← List.append_assoc]
    exact ih _

/-- **Pushes are read back as they were written, and written as short as they can be.** Parts of
less than 2³² bytes each can be written as pushes, all at once or one after the other behind an
empty script; the bytes are the same. They are cut into one piece for each part, in order, which
pushes that part, and in front of it stands the shortest form of its length. -/
theorem encodePushes_readBack (parts : List Bytes)
    (h : ∀ part ∈ parts, part.length ≤ 0xffffffff) :
    ∃ b chunks, encodePushes parts = .ok b ∧
      parts.foldlM Script.appendPush .empty = .ok ⟨b⟩ ∧
      Chunk.parse b = .ok chunks ∧ b = chunks.flatMap Chunk.toBytes ∧
      List.Forall₂ Chunk.IsPushOf parts chunks := by
  obtain ⟨chunks, hchunks⟩ := Chunk.exists_forall₂_isPushOf h
  exact ⟨_, chunks, encodePushesFrom_of_isPushOf hchunks 0,
    Script.foldlM_appendPush hchunks .empty, Chunk.parse_of_isPushOf hchunks, rfl, hchunks⟩

/-- Nothing, a part that looks like an opcode, and one too long for a direct push. -/
def sampleParts : List Bytes :=
  [[], [Opcode.opReturn], List.replicate 76 Opcode.pushData4]

theorem encodePushes_readBack_sampleParts :
    (∀ part ∈ sampleParts, part.length ≤ 0xffffffff) ∧
      ∃ b, encodePushes sampleParts = .ok b ∧
        sampleParts.foldlM Script.appendPush .empty = .ok ⟨b⟩ ∧
        List.Forall₂ Chunk.IsPushOf sampleParts [.code Opcode.op0, .push 1 [Opcode.opReturn],
          .push Opcode.pushData1 (List.replicate 76 Opcode.pushData4)] := by
  have hfit : ∀ part ∈ sampleParts, part.length ≤ 0xffffffff := by decide
  have hbytes : encodePushes sampleParts =
      .ok (0 :: 1 :: Opcode.opReturn :: Opcode.pushData1 :: 76 ::
        List.replicate 76 Opcode.pushData4) := by decide +kernel
  obtain ⟨b, chunks, hencode, happend, hparse, -, hpushes⟩ := encodePushes_readBack sampleParts hfit
  rw [hbytes] at hencode
  cases hencode
  have hchunks : Chunk.parse (0 :: 1 :: Opcode.opReturn :: Opcode.pushData1 :: 76 ::
      List.replicate 76 Opcode.pushData4) = .ok [.code Opcode.op0, .push 1 [Opcode.opReturn],
        .push Opcode.pushData1 (List.replicate 76 Opcode.pushData4)] := by decide +kernel
  rw [hchunks] at hparse
  cases hparse
  exact ⟨hfit, _, hbytes, happend, hpushes⟩

/-! ## Short pushes -/

/-- Data that a single byte in front pushes, which is the opcode and the length at once. -/
def IsShortPush (data : Bytes) : Prop :=
  1 ≤ data.length ∧ data.length ≤ 75

/-- The data with its length in front. -/
def shortPush (data : Bytes) : Bytes :=
  UInt8.ofNat data.length :: data

namespace Chunk

/-- Data that a single byte can push is pushed so. -/
theorem isPushOf_shortPush {data : Bytes} (h : IsShortPush data) :
    IsPushOf data (push (UInt8.ofNat data.length) data) ∧
      (push (UInt8.ofNat data.length) data).toBytes = shortPush data := by
  have hne : data ≠ [] := List.ne_nil_of_length_pos h.1
  have hheader : pushHeader data.length = .ok [UInt8.ofNat data.length] := if_pos h.2
  have hdirect := IsPushHeader.direct h.2
  obtain ⟨form, hform, -, -⟩ := hdirect.exists_form h.1
  obtain ⟨-, hbytes⟩ := passes_push hdirect hne 0
  exact ⟨⟨isPush_of_form hform data, (if_neg hne).symm, fun hnil => absurd hnil hne, _,
    pushHeader_eq_ok_iff.mp hheader, hbytes⟩, hbytes⟩

theorem forall₂_isPushOf_shortPush {parts : List Bytes} (h : ∀ data ∈ parts, IsShortPush data) :
    List.Forall₂ IsPushOf parts (parts.map fun data => push (UInt8.ofNat data.length) data) := by
  rw [List.forall₂_map_right_iff, List.forall₂_same]
  exact fun data hdata => (isPushOf_shortPush (h data hdata)).1

theorem flatMap_shortPush {parts : List Bytes} (h : ∀ data ∈ parts, IsShortPush data) :
    (parts.map fun data => push (UInt8.ofNat data.length) data).flatMap toBytes =
      parts.flatMap shortPush := by
  rw [List.flatMap_map]
  exact List.flatMap_congr fun data hdata => (isPushOf_shortPush (h data hdata)).2

theorem parse_shortPushes {parts : List Bytes} (h : ∀ data ∈ parts, IsShortPush data) :
    parse (parts.flatMap shortPush) =
      .ok (parts.map fun data => push (UInt8.ofNat data.length) data) := by
  rw [← flatMap_shortPush h]
  exact parse_of_isPushOf (forall₂_isPushOf_shortPush h)

theorem isPush_shortPush {data : Bytes} (h : IsShortPush data) :
    (push (UInt8.ofNat data.length) data).isPush = true :=
  (isPushOf_shortPush h).1.isPush

end Chunk

theorem encodePushesFrom_short {parts : List Bytes} (h : ∀ data ∈ parts, IsShortPush data)
    (i : Nat) : encodePushesFrom i parts = .ok (parts.flatMap shortPush) := by
  rw [← Chunk.flatMap_shortPush h]
  exact encodePushesFrom_of_isPushOf (Chunk.forall₂_isPushOf_shortPush h) i

end CashWallet
