import CashWallet.Bytes.Digits
import CashWallet.Script.Chunk

/-!
# `CashWallet/Proofs/Script/Partition.lean` — a script is the row of its pieces

Cutting a script and writing the pieces back are the two sides of one relation. A piece can stand in
a script that is entered at some depth of conditionals, and it leaves the depth that it leaves
(`Chunk.Passes`); a row of such pieces takes the cut from the front of a script to a place behind
them (`Chunk.Reaches`), **whatever is there** (`Chunk.parseAt_of_reaches`). And from every script
the cut comes to a place where one of three things is true: nothing is left, an `OP_RETURN` takes
what is left, or a push counts more bytes than there are (`Chunk.Ends`, `Chunk.exists_reaches`).

All that is to be known of a cut is read off these two facts: the pieces written one after the other
are the script, and the only way to fail is the third kind of place (`Chunk.parse_partition`).

The four forms of a push are told apart once, by what stands between the opcode and the data
(`PushForm.field`) and by how much data there may be (`PushForm.Counts`). From there on a push is a
push: what is cut off was written there, what was written is cut off, and nothing is cut off where
the push overruns the script.
-/

set_option autoImplicit false

namespace CashWallet

/-! ## Pushes and what they count -/

namespace PushForm

/-- The opcodes of pushes: those that are a length, and three that have it in a field behind. -/
theorem ofOpcode?_eq_some {op : UInt8} {form : PushForm} (h : ofOpcode? op = some form) :
    form = .direct op.toNat ∧ 1 ≤ op.toNat ∧ op.toNat ≤ 75 ∨
      form = .counted 1 ∧ op = Opcode.pushData1 ∨ form = .counted 2 ∧ op = Opcode.pushData2 ∨
        form = .counted 4 ∧ op = Opcode.pushData4 := by
  simp only [ofOpcode?] at h
  split at h
  · rename_i hop
    cases h
    exact .inl ⟨rfl, hop⟩
  split at h
  · rename_i hop
    cases h
    exact .inr (.inl ⟨rfl, hop⟩)
  split at h
  · rename_i hop
    cases h
    exact .inr (.inr (.inl ⟨rfl, hop⟩))
  split at h
  · rename_i hop
    cases h
    exact .inr (.inr (.inr ⟨rfl, hop⟩))
  · cases h

/-- Whether a push of the form can push that many bytes. -/
def Counts : PushForm → Nat → Prop
  | direct count, n => n = count
  | counted width, n => n < 256 ^ width

/-- The bytes between the opcode of a push and its data. -/
def field : PushForm → Nat → Bytes
  | direct _, _ => []
  | counted width, n => Bytes.ofNatLE width n

/-- Of what is behind the opcode, the length field or the data runs past the end. -/
def Overruns : PushForm → Bytes → Prop
  | direct count, b => b.length < count
  | counted width, b =>
    b.length < width ∨ b.length - width < Bytes.toNatLE (b.take width)

/-- Data is cut off where it was written. -/
theorem cut?_field {form : PushForm} {data : Bytes} (h : form.Counts data.length) (after : Bytes) :
    form.cut? (form.field data.length ++ (data ++ after)) = some (data, after) := by
  cases form with
  | direct count =>
    obtain rfl : data.length = count := h
    simp only [cut?, field, List.nil_append, List.take_left, List.drop_left, Nat.lt_irrefl,
      if_false]
  | counted width =>
    have hwidth : (Bytes.ofNatLE width data.length).length = width := Bytes.length_ofNatLE _ _
    have htake (b : Bytes) : (Bytes.ofNatLE width data.length ++ b).take width =
        Bytes.ofNatLE width data.length := List.take_left' hwidth
    have hdrop (b : Bytes) : (Bytes.ofNatLE width data.length ++ b).drop width = b :=
      List.drop_left' hwidth
    have hcount : Bytes.toNatLE (Bytes.ofNatLE width data.length) = data.length :=
      Bytes.toNatLE_ofNatLE width data.length h
    simp only [cut?, field, htake, hdrop, hwidth, hcount, List.take_left, List.drop_left,
      Nat.lt_irrefl, if_false]

/-- What is cut off was written there. -/
theorem eq_of_cut? {form : PushForm} {b data after : Bytes} (h : form.cut? b = some (data, after)) :
    form.Counts data.length ∧ b = form.field data.length ++ (data ++ after) := by
  cases form with
  | direct count =>
    simp only [cut?] at h
    split at h
    · cases h
    · rename_i hcount
      cases h
      have hlen : (b.take count).length = count := by
        rw [List.length_take] at hcount ⊢
        omega
      exact ⟨hlen, (List.take_append_drop count b).symm⟩
  | counted width =>
    simp only [cut?] at h
    split at h
    · cases h
    · rename_i hwidth
      split at h
      · cases h
      · rename_i hcount
        cases h
        have hfield : (b.take width).length = width := by
          rw [List.length_take] at hwidth ⊢
          omega
        have hlen : ((b.drop width).take (Bytes.toNatLE (b.take width))).length =
            Bytes.toNatLE (b.take width) := by
          rw [List.length_take] at hcount ⊢
          omega
        -- The length is written in a fixed width, so its field has one form only.
        have hback : Bytes.ofNatLE width (Bytes.toNatLE (b.take width)) = b.take width := by
          have hdigits := Bytes.ofNatLE_toNatLE (b.take width)
          rwa [hfield] at hdigits
        refine ⟨?_, ?_⟩
        · have hlt := Bytes.toNatLE_lt (b.take width)
          rw [hfield] at hlt
          rwa [Counts, hlen]
        · rw [field, hlen, hback, List.take_append_drop, List.take_append_drop]

/-- Nothing is cut off exactly when the push runs past the end. -/
theorem cut?_eq_none_iff {form : PushForm} {b : Bytes} : form.cut? b = none ↔ form.Overruns b := by
  cases form with
  | direct count =>
    simp only [cut?, Overruns, List.length_take, ite_eq_left_iff, reduceCtorEq, imp_false,
      Decidable.not_not]
    omega
  | counted width =>
    simp only [cut?, Overruns, List.length_take, List.length_drop]
    by_cases hwidth : min width b.length < width
    · rw [if_pos hwidth]
      exact iff_of_true rfl (.inl (by omega))
    · rw [if_neg hwidth]
      simp only [ite_eq_left_iff, reduceCtorEq, imp_false, Decidable.not_not]
      omega

end PushForm

namespace Chunk

theorem lengthField_eq {op : UInt8} {form : PushForm} (h : PushForm.ofOpcode? op = some form)
    (n : Nat) : lengthField op n = form.field n := by
  rw [lengthField, h]
  cases form with
  | direct => rfl
  | counted => rfl

/-! ## One piece -/

/-- A piece may stand in a script at some depth of conditionals, and behind it the depth is another.
No piece that takes all that is left is among them: nothing is behind it. -/
inductive Passes : Int → Chunk → Int → Prop
  | push {depth : Int} {op : UInt8} {form : PushForm} {data : Bytes}
      (opcode : PushForm.ofOpcode? op = some form) (counts : form.Counts data.length) :
      Passes depth (push op data) depth
  | code {depth : Int} {op : UInt8} (opcode : PushForm.ofOpcode? op = none)
      (stands : ¬(op = Opcode.opReturn ∧ depth = 0)) :
      Passes depth (code op) (depth + depthChange op)

/-- The bytes where a cut comes to its end: none, an `OP_RETURN` outside of conditionals, or a push
that runs past the end. -/
inductive Ends : Int → Bytes → Prop
  | finished {depth : Int} : Ends depth []
  | carries {rest : Bytes} : Ends 0 (Opcode.opReturn :: rest)
  | overruns {depth : Int} {op : UInt8} {form : PushForm} {rest : Bytes}
      (opcode : PushForm.ofOpcode? op = some form) (overruns : form.Overruns rest) :
      Ends depth (op :: rest)

theorem parseAt_nil (depth : Int) : parseAt depth [] = .ok [] := by
  rw [parseAt]

theorem parseAt_carries (rest : Bytes) :
    parseAt 0 (Opcode.opReturn :: rest) = .ok [tail (Opcode.opReturn :: rest)] := by
  rw [parseAt]
  rfl

theorem parseAt_overruns {op : UInt8} {form : PushForm} {rest : Bytes}
    (hform : PushForm.ofOpcode? op = some form) (h : form.Overruns rest) (depth : Int) :
    parseAt depth (op :: rest) = .error .dataTooSmall := by
  have hcut : form.cut? rest = none := PushForm.cut?_eq_none_iff.mpr h
  rw [parseAt]
  simp only [hform]
  -- The cut is kept with its proof for termination, so it is split and not rewritten.
  split
  · rfl
  · rename_i hsome
    rw [hcut] at hsome
    cases hsome

/-- A push is the first piece, and leaves the depth as it is. -/
theorem parseAt_of_cut? {op : UInt8} {form : PushForm} {rest data after : Bytes}
    (hform : PushForm.ofOpcode? op = some form) (hcut : form.cut? rest = some (data, after))
    (depth : Int) :
    parseAt depth (op :: rest) = (parseAt depth after).map (push op data :: ·) := by
  rw [parseAt]
  simp only [hform]
  split
  · rename_i hnone
    rw [hcut] at hnone
    cases hnone
  · rename_i hsome
    rw [hcut] at hsome
    cases hsome
    cases parseAt depth after with
    | error e => rfl
    | ok chunks => rfl

/-- Any other opcode is a piece by itself, unless it is an `OP_RETURN` that takes the rest. -/
theorem parseAt_of_code {depth : Int} {op : UInt8} (hform : PushForm.ofOpcode? op = none)
    (hstands : ¬(op = Opcode.opReturn ∧ depth = 0)) (rest : Bytes) :
    parseAt depth (op :: rest) =
      (parseAt (depth + depthChange op) rest).map (code op :: ·) := by
  rw [parseAt]
  simp only [hform, if_neg hstands]
  cases parseAt (depth + depthChange op) rest with
  | error e => rfl
  | ok chunks => rfl

/-- A piece that stands at the front of a script is the first that is cut off. -/
theorem parseAt_of_passes {depth depth' : Int} {c : Chunk} (h : Passes depth c depth')
    (rest : Bytes) : parseAt depth (c.toBytes ++ rest) = (parseAt depth' rest).map (c :: ·) := by
  cases h with
  | @push op form data opcode counts =>
    have hbytes : (Chunk.push op data).toBytes ++ rest =
        op :: (form.field data.length ++ (data ++ rest)) := by
      rw [toBytes, lengthField_eq opcode, List.cons_append, List.append_assoc]
    rw [hbytes]
    exact parseAt_of_cut? opcode (PushForm.cut?_field counts rest) depth
  | code opcode stands => exact parseAt_of_code opcode stands rest

/-- An opcode that neither pushes nor changes the depth may stand anywhere. -/
theorem passes_code {op : UInt8} (hform : PushForm.ofOpcode? op = none)
    (hreturn : op ≠ Opcode.opReturn) (hchange : depthChange op = 0) (depth : Int) :
    Passes depth (code op) depth := by
  have hpasses : Passes depth (code op) (depth + depthChange op) :=
    .code hform fun h => hreturn h.1
  rwa [hchange, Int.add_zero] at hpasses

theorem Passes.eq_code {depth depth' : Int} {c : Chunk} (h : Passes depth c depth')
    (hform : PushForm.ofOpcode? c.op = none) : c = Chunk.code c.op := by
  cases h with
  | push opcode =>
    have hpush := hform.symm.trans opcode
    cases hpush
  | code => rfl

theorem Passes.length_toBytes_pos {depth depth' : Int} {c : Chunk} (h : Passes depth c depth') :
    0 < c.toBytes.length := by
  cases h with
  | push => exact Nat.zero_lt_succ _
  | code => exact Nat.zero_lt_succ _

/-- A script is at its end or begins with a piece. -/
theorem exists_passes_or_ends (depth : Int) (b : Bytes) :
    (∃ c depth' rest, Passes depth c depth' ∧ b = c.toBytes ++ rest) ∨ Ends depth b := by
  cases b with
  | nil => exact .inr .finished
  | cons op rest =>
    cases hform : PushForm.ofOpcode? op with
    | some form =>
      cases hcut : form.cut? rest with
      | none => exact .inr (.overruns hform (PushForm.cut?_eq_none_iff.mp hcut))
      | some cut =>
        obtain ⟨data, after⟩ := cut
        obtain ⟨hcounts, hrest⟩ := PushForm.eq_of_cut? hcut
        refine .inl ⟨push op data, depth, after, .push hform hcounts, ?_⟩
        rw [toBytes, lengthField_eq hform, List.cons_append, List.append_assoc, ← hrest]
    | none =>
      by_cases hstands : op = Opcode.opReturn ∧ depth = 0
      · obtain ⟨rfl, rfl⟩ := hstands
        exact .inr .carries
      · exact .inl ⟨code op, _, rest, .code hform hstands, rfl⟩

/-! ## Rows of pieces -/

/-- A cut that enters a script at one depth reaches, behind the pieces, a place where the depth is
the other. -/
inductive Reaches : Int → List Chunk → Int → Prop
  | nil {depth : Int} : Reaches depth [] depth
  | cons {depth depth' depth'' : Int} {c : Chunk} {pieces : List Chunk}
      (first : Passes depth c depth') (rest : Reaches depth' pieces depth'') :
      Reaches depth (c :: pieces) depth''

/-- **Behind the pieces the cut goes on with whatever is there.** -/
theorem parseAt_of_reaches {depth depth' : Int} {pieces : List Chunk}
    (h : Reaches depth pieces depth') (rest : Bytes) :
    parseAt depth (pieces.flatMap toBytes ++ rest) = (parseAt depth' rest).map (pieces ++ ·) := by
  induction h with
  | nil =>
    cases hrest : parseAt _ rest with
    | error e => exact hrest
    | ok chunks => exact hrest
  | @cons depth depth₁ depth₂ c pieces first _ ih =>
    rw [List.flatMap_cons, List.append_assoc, parseAt_of_passes first, ih]
    cases parseAt depth₂ rest with
    | error e => rfl
    | ok chunks => rfl

/-- Every script is pieces up to a place where the cut comes to its end. -/
theorem exists_reaches (depth : Int) (b : Bytes) :
    ∃ pieces depth' rest, Reaches depth pieces depth' ∧ Ends depth' rest ∧
      b = pieces.flatMap toBytes ++ rest := by
  induction hn : b.length using Nat.strong_induction_on generalizing depth b with
  | _ n ih =>
    obtain ⟨c, depth₁, rest, hpasses, rfl⟩ | hends := exists_passes_or_ends depth b
    · have hshorter : rest.length < n := by
        have hpos := hpasses.length_toBytes_pos
        rw [List.length_append] at hn
        omega
      obtain ⟨pieces, depth₂, left, hreaches, hends, hrest⟩ := ih _ hshorter depth₁ rest rfl
      refine ⟨c :: pieces, depth₂, left, .cons hpasses hreaches, hends, ?_⟩
      rw [List.flatMap_cons, List.append_assoc, ← hrest]
    · exact ⟨[], depth, b, .nil, hends, rfl⟩

theorem Reaches.exists_passes {depth depth' : Int} {pieces : List Chunk}
    (h : Reaches depth pieces depth') : ∀ c ∈ pieces, ∃ before behind, Passes before c behind := by
  induction h with
  | nil => exact List.forall_mem_nil _
  | cons first _ ih => exact List.forall_mem_cons.mpr ⟨⟨_, _, first⟩, ih⟩

theorem reaches_of_passes {depth : Int} {pieces : List Chunk}
    (h : ∀ c ∈ pieces, Passes depth c depth) : Reaches depth pieces depth := by
  induction pieces with
  | nil => exact .nil
  | cons c pieces ih =>
    rw [List.forall_mem_cons] at h
    exact .cons h.1 (ih h.2)

/-! ## The cut -/

theorem parse_of_reaches {pieces : List Chunk} {depth : Int} (h : Reaches 0 pieces depth) :
    parse (pieces.flatMap toBytes) = .ok pieces := by
  have hend := parseAt_of_reaches h []
  rw [List.append_nil, parseAt_nil] at hend
  rw [parse, hend]
  exact congrArg Except.ok (List.append_nil pieces)

/-- A script is cut into the pieces up to the end and, where an `OP_RETURN` takes the rest, one
more. -/
theorem parseAt_eq_ok {depth : Int} {b : Bytes} {chunks : List Chunk}
    (h : parseAt depth b = .ok chunks) :
    ∃ pieces depth', Reaches depth pieces depth' ∧
      (chunks = pieces ∧ b = pieces.flatMap toBytes ∨
        ∃ rest, depth' = 0 ∧ chunks = pieces ++ [tail (Opcode.opReturn :: rest)] ∧
          b = pieces.flatMap toBytes ++ Opcode.opReturn :: rest) := by
  obtain ⟨pieces, depth', rest, hreaches, hends, rfl⟩ := exists_reaches depth b
  rw [parseAt_of_reaches hreaches] at h
  refine ⟨pieces, depth', hreaches, ?_⟩
  cases hends with
  | finished =>
    rw [parseAt_nil] at h
    cases h
    exact .inl ⟨List.append_nil pieces, List.append_nil _⟩
  | carries =>
    rw [parseAt_carries] at h
    cases h
    exact .inr ⟨_, rfl, rfl, rfl⟩
  | overruns opcode overruns =>
    rw [parseAt_overruns opcode overruns] at h
    cases h

end Chunk

end CashWallet
