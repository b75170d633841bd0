import CashWallet.Proofs.Wire.Failure

/-!
# `CashWallet/Proofs/Wire/Position.lean` — where a reader stands, also after a failure

A reader keeps no position. It says what it leaves, and whoever holds the buffer knows from the
length of that how far the reading has come. Reading does not end with a read that fails: the next
one goes on from wherever the failure left the buffer, so that the position has to be sound after
any row of successes and failures. **What is left is always the buffer from the position on**
(`ReadOp.run_sound`).

All that one operation can do to a string is said once. When it succeeds it has taken the bytes that
it decoded, a number in front of them included, and no others (`ReadOp.read_eq_ok`); when it fails,
something was missing, and it has taken nothing, or no more than the number in front
(`ReadOp.read_eq_error`). A run is an induction along its operations, with the part of the buffer
that is gone in front of what is left.
-/

set_option autoImplicit false

namespace CashWallet

open Reader VarInt

/-! ## Fields -/

namespace FieldKind

/-- How many bytes a field of the kind has, unless a number in front of it tells. -/
def width? : FieldKind → Option Nat
  | uint8 => some 1
  | uint16 => some 2
  | uint16BE => some 2
  | uint32 => some 4
  | int32 => some 4
  | uint64 => some 8
  | int64 => some 8
  | varInt => none
  | bytes n => some n
  | varBytes => none
  | varText => none
  | hash => some 32

/-- The bytes of which a field is decoded. Those of a fixed width are the ones that are written for
it; a number may stand in any of its forms, and a text is what its bytes show without padding. -/
inductive Decodes : FieldKind → Bytes → Field → Prop
  | fixed {f : Field} {n : Nat} (h : f.kind.width? = some n) : Decodes f.kind f.encode f
  | varInt {x : Bytes} {v : UInt64} (h : Spells x v.toNat) : Decodes .varInt x (.varInt v)
  | varBytes {x b : Bytes} (h : Spells x b.length) : Decodes .varBytes (x ++ b) (.varBytes b)
  | varText {x b : Bytes} (h : Spells x b.length) :
      Decodes .varText (x ++ b) (.varText (paddedText b))

/-- A field of a fixed width fails for too few bytes, and takes none. -/
theorem failsAs_of_width? {kind : FieldKind} {n : Nat} (h : kind.width? = some n) :
    kind.read.FailsAs (TooFew n) := by
  cases kind with
  | uint8 => cases h; exact ((FailsAs.natLE 1).bind_pure UInt8.ofNat).bind_pure Field.uint8
  | uint16 => cases h; exact ((FailsAs.natLE 2).bind_pure UInt16.ofNat).bind_pure Field.uint16
  | uint16BE =>
    cases h
    exact ((FailsAs.take 2).bind_pure fun b => UInt16.ofNat (Bytes.toNatBE b)).bind_pure
      Field.uint16BE
  | uint32 => cases h; exact FailsAs.uint32.bind_pure Field.uint32
  | int32 => cases h; exact (FailsAs.uint32.bind_pure UInt32.toInt32).bind_pure Field.int32
  | uint64 => cases h; exact FailsAs.uint64.bind_pure Field.uint64
  | int64 => cases h; exact (FailsAs.uint64.bind_pure UInt64.toInt64).bind_pure Field.int64
  | bytes n => cases h; exact (FailsAs.take n).bind_pure Field.bytes
  | hash => cases h; exact FailsAs.hash256.bind_pure Field.hash
  | varInt => cases h
  | varBytes => cases h
  | varText => cases h

/-- A field has as many bytes as its kind tells. -/
theorem length_encode_of_width? {f : Field} {n : Nat} (h : f.kind.width? = some n) :
    f.encode.length = n := by
  cases f with
  | uint8 v => cases h; rfl
  | uint16 v => cases h; exact Bytes.length_ofNatLE 2 _
  | uint16BE v => cases h; exact Bytes.length_ofNatBE 2 _
  | uint32 v => cases h; exact Bytes.length_ofNatLE 4 _
  | int32 v => cases h; exact Bytes.length_ofNatLE 4 _
  | uint64 v => cases h; exact Bytes.length_ofNatLE 8 _
  | int64 v => cases h; exact Bytes.length_ofNatLE 8 _
  | bytes b => cases h; rfl
  | hash x => cases h; exact x.length_bytes
  | varInt v => cases h
  | varBytes b => cases h
  | varText s => cases h

/-- A reader that takes what is written for a field decodes it, when the width of the kind is
fixed. -/
theorem exists_decodes_of_width? {α : Type} {r : Reader ReadError α} (make : α → Field)
    {kind : FieldKind} {n : Nat} (hwidth : kind.width? = some n)
    (hkind : ∀ a, (make a).kind = kind)
    (hr : ∀ {b rest : Bytes} {a : α}, r b = (.ok a, rest) → b = (make a).encode ++ rest)
    {b rest : Bytes} {f : Field} (h : (r >>= fun a => pure (make a)) b = (.ok f, rest)) :
    ∃ x, b = x ++ rest ∧ kind.Decodes x f := by
  obtain ⟨a, ha, rfl⟩ := bind_pure_eq_ok h
  refine ⟨(make a).encode, hr ha, ?_⟩
  rw [← hkind a] at hwidth ⊢
  exact .fixed hwidth

/-- **A field that is read has been decoded from the bytes that were taken.** -/
theorem read_eq_ok {kind : FieldKind} {b rest : Bytes} {f : Field}
    (h : kind.read b = (.ok f, rest)) : ∃ x, b = x ++ rest ∧ kind.Decodes x f := by
  cases kind with
  | uint8 => exact exists_decodes_of_width? Field.uint8 rfl (fun _ => rfl) byte_eq_ok h
  | uint16 => exact exists_decodes_of_width? Field.uint16 rfl (fun _ => rfl) uint16_eq_ok h
  | uint16BE => exact exists_decodes_of_width? Field.uint16BE rfl (fun _ => rfl) uint16BE_eq_ok h
  | uint32 => exact exists_decodes_of_width? Field.uint32 rfl (fun _ => rfl) uint32_eq_ok h
  | int32 => exact exists_decodes_of_width? Field.int32 rfl (fun _ => rfl) int32_eq_ok h
  | uint64 => exact exists_decodes_of_width? Field.uint64 rfl (fun _ => rfl) uint64_eq_ok h
  | int64 => exact exists_decodes_of_width? Field.int64 rfl (fun _ => rfl) int64_eq_ok h
  | hash => exact exists_decodes_of_width? Field.hash rfl (fun _ => rfl) hash256_eq_ok h
  | varInt =>
    obtain ⟨v, hv, rfl⟩ := bind_pure_eq_ok h
    obtain ⟨x, hform, hb⟩ := varInt_eq_ok hv
    exact ⟨x, hb, .varInt hform.spells⟩
  | bytes n =>
    obtain ⟨x, hx, rfl⟩ := bind_pure_eq_ok h
    obtain ⟨hb, rfl⟩ := take_eq_ok hx
    exact ⟨x, hb, .fixed (f := .bytes x) rfl⟩
  | varBytes =>
    obtain ⟨y, hy, rfl⟩ := bind_pure_eq_ok h
    obtain ⟨x, hform, hb⟩ := varBytes_eq_ok hy
    exact ⟨x ++ y, by rw [hb, List.append_assoc], .varBytes hform.spells⟩
  | varText =>
    obtain ⟨s, hs, rfl⟩ := bind_pure_eq_ok h
    obtain ⟨y, hy, rfl⟩ := bind_pure_eq_ok hs
    obtain ⟨x, hform, hb⟩ := varBytes_eq_ok hy
    exact ⟨x ++ y, by rw [hb, List.append_assoc], .varText hform.spells⟩

end FieldKind

/-! ## Operations -/

/-- What can be asked of a reader: a field, an array, the length of what follows, or a look at what
is left and at how much that is. -/
inductive ReadOp
  | field (kind : FieldKind)
  | array (n : Nat)
  | length
  | rest
  | remaining
  deriving Repr, DecidableEq

/-- What an operation comes to. -/
inductive ReadValue
  | field (f : Field)
  | array (b : Bytes)
  | length (n : Nat)
  | rest (b : Bytes)
  | remaining (n : Nat)
  deriving DecidableEq

namespace ReadOp

/-- What an operation does to what is left. Looking at it takes nothing. -/
def read : ReadOp → Reader ReadError ReadValue
  | field kind => return .field (← kind.read)
  | array n => return .array (← Reader.fixed n).bytes
  | length => return .length (← Reader.length)
  | rest => return .rest (← Reader.peek)
  | remaining => return .remaining (← Reader.remaining)

def width? : ReadOp → Option Nat
  | field kind => kind.width?
  | array n => some n
  | length => none
  | rest => some 0
  | remaining => some 0

/-- The bytes of which a value is decoded, in front of what is left. -/
inductive Decodes : ReadOp → Bytes → Bytes → ReadValue → Prop
  | field {kind : FieldKind} {x left : Bytes} {f : Field} (h : kind.Decodes x f) :
      Decodes (.field kind) x left (.field f)
  | array {x left : Bytes} : Decodes (.array x.length) x left (.array x)
  | length {x left : Bytes} {n : Nat} (h : Spells x n) (hroom : n ≤ left.length) :
      Decodes .length x left (.length n)
  | rest {left : Bytes} : Decodes .rest [] left (.rest left)
  | remaining {left : Bytes} : Decodes .remaining [] left (.remaining left.length)

/-- What is decoded of a fixed width has as many bytes. -/
theorem Decodes.length_eq {op : ReadOp} {x left : Bytes} {v : ReadValue} {n : Nat}
    (h : op.Decodes x left v) (hwidth : op.width? = some n) : x.length = n := by
  cases h with
  | field h =>
    cases h with
    | fixed hfixed =>
      rw [FieldKind.length_encode_of_width? hfixed]
      exact Option.some.inj (hfixed.symm.trans hwidth)
    | varInt _ => cases hwidth
    | varBytes _ => cases hwidth
    | varText _ => cases hwidth
  | array => exact Option.some.inj hwidth
  | length _ _ => cases hwidth
  | rest => exact Option.some.inj hwidth
  | remaining => exact Option.some.inj hwidth

/-- **An operation that succeeds has taken the bytes that it decoded.** -/
theorem read_eq_ok {op : ReadOp} {b left : Bytes} {v : ReadValue}
    (h : op.read b = (.ok v, left)) : ∃ x, b = x ++ left ∧ op.Decodes x left v := by
  cases op with
  | field kind =>
    obtain ⟨f, hf, rfl⟩ := bind_pure_eq_ok h
    obtain ⟨x, hb, hdecodes⟩ := FieldKind.read_eq_ok hf
    exact ⟨x, hb, .field hdecodes⟩
  | array n =>
    obtain ⟨x, hx, rfl⟩ := bind_pure_eq_ok h
    obtain ⟨bytes, rfl⟩ := x
    exact ⟨bytes, fixed_eq_ok hx, .array⟩
  | length =>
    obtain ⟨n, hn, rfl⟩ := bind_pure_eq_ok h
    obtain ⟨x, hform, hb, hroom⟩ := length_eq_ok hn
    exact ⟨x, hb, .length hform.spells hroom⟩
  | rest =>
    cases h
    exact ⟨[], rfl, .rest⟩
  | remaining =>
    cases h
    exact ⟨[], rfl, .remaining⟩

/-- How an operation can fail: something is missing, and no more than the number in front of it has
been taken. -/
inductive Fails : ReadOp → Bytes → ReadError → Bytes → Prop
  | tooFew {op : ReadOp} {n : Nat} {b left : Bytes} {e : ReadError} (hwidth : op.width? = some n)
      (h : TooFew n b e left) : Fails op b e left
  | number {b left : Bytes} {e : ReadError} (h : CutOff b e left) :
      Fails (.field .varInt) b e left
  | unfilled {op : ReadOp} {b left : Bytes} {e : ReadError} (hwidth : op.width? = none)
      (hop : op ≠ .field .varInt) (h : Unfilled b e left) : Fails op b e left

theorem Fails.eq_of_width? {op : ReadOp} {b left : Bytes} {e : ReadError} {n : Nat}
    (h : op.Fails b e left) (hwidth : op.width? = some n) : left = b := by
  cases h with
  | tooFew _ h =>
    cases h
    rfl
  | number _ => cases hwidth
  | unfilled hnone _ _ =>
    rw [hnone] at hwidth
    cases hwidth

theorem Fails.unfilled_of_width? {op : ReadOp} {b left : Bytes} {e : ReadError}
    (h : op.Fails b e left) (hwidth : op.width? = none) : Unfilled b e left := by
  cases h with
  | tooFew hsome _ =>
    rw [hwidth] at hsome
    cases hsome
  | number h => exact .cutOff h
  | unfilled _ _ h => exact h

/-- **An operation that fails has missed something.** -/
theorem read_eq_error {op : ReadOp} {b left : Bytes} {e : ReadError}
    (h : op.read b = (.error e, left)) : op.Fails b e left := by
  cases op with
  | field kind =>
    -- A field fails with its kind, and the kinds without a width are three.
    obtain h | ⟨f, mid, -, h⟩ := bind_eq_error h
    · cases hwidth : kind.width? with
      | some n => exact .tooFew hwidth (FieldKind.failsAs_of_width? hwidth _ _ _ h)
      | none =>
        cases kind with
        | varInt => exact .number (FailsAs.varInt.bind_pure Field.varInt _ _ _ h)
        | varBytes =>
          exact .unfilled rfl (by decide) (FailsAs.varBytes.bind_pure Field.varBytes _ _ _ h)
        | varText =>
          exact .unfilled rfl (by decide) (FailsAs.varText.bind_pure Field.varText _ _ _ h)
        | _ => cases hwidth
    · cases h
  | array n =>
    have hfixed := (FailsAs.fixed n).bind_pure fun b => ReadValue.array b.bytes
    exact .tooFew rfl (hfixed _ _ _ h)
  | length =>
    exact .unfilled rfl (by decide) (FailsAs.length.bind_pure ReadValue.length _ _ _ h)
  | rest => cases h
  | remaining => cases h

/-- Whatever becomes of an operation, it leaves an end of the string. -/
theorem exists_taken (op : ReadOp) {b left : Bytes} {o : Except ReadError ReadValue}
    (h : op.read b = (o, left)) : ∃ taken, b = taken ++ left := by
  cases o with
  | ok v =>
    obtain ⟨taken, hb, -⟩ := read_eq_ok h
    exact ⟨taken, hb⟩
  | error e =>
    have hfails := read_eq_error h
    cases hwidth : op.width? with
    | some n => exact ⟨[], (hfails.eq_of_width? hwidth).symm⟩
    | none => exact (hfails.unfilled_of_width? hwidth).exists_taken

end ReadOp

/-! ## Runs -/

/-- One operation of a run: where it began, what came of it, and where it stopped. -/
structure ReadStep where
  op : ReadOp
  start : Nat
  outcome : Except ReadError ReadValue
  stop : Nat

namespace ReadOp

/-- An operation on what is left of a buffer of the given size. The position is the number of bytes
that are gone. -/
def step (size : Nat) (op : ReadOp) (left : Bytes) : ReadStep :=
  ⟨op, size - left.length, (op.read.run left).1, size - (op.read.run left).2.length⟩

/-- Operations one after the other. One that fails does not end the run: the next goes on with what
it left. -/
def runFrom (size : Nat) : List ReadOp → Bytes → List ReadStep
  | [], _ => []
  | op :: ops, left => op.step size left :: runFrom size ops (op.read.run left).2

/-- Operations from the front of a buffer on. -/
def run (ops : List ReadOp) (data : Bytes) : List ReadStep :=
  runFrom data.length ops data

end ReadOp

namespace ReadStep

/-- What a step owes to the buffer. It has read at its position, and has not gone back or past the
end. When it succeeded it has gone on by what it decoded; when it failed something was missing, and
it has stayed where it was or gone past the number in front at most. -/
structure IsSound (data : Bytes) (s : ReadStep) : Prop where
  start_le : s.start ≤ s.stop
  stop_le : s.stop ≤ data.length
  reads : s.op.read.run (data.drop s.start) = (s.outcome, data.drop s.stop)
  decoded : ∀ v, s.outcome = .ok v →
    s.op.Decodes ((data.drop s.start).take (s.stop - s.start)) (data.drop s.stop) v
  advances : ∀ v n, s.outcome = .ok v → s.op.width? = some n → s.stop = s.start + n
  fails : ∀ e, s.outcome = .error e → s.op.Fails (data.drop s.start) e (data.drop s.stop)
  stays : ∀ e n, s.outcome = .error e → s.op.width? = some n → s.stop = s.start
  passes : ∀ e, s.outcome = .error e → s.op.width? = none →
    s.stop ≤ s.start + announcedBy (data.drop s.start)

/-- Sound steps, the first of which begins at a position and each other where the one before it
stopped. -/
inductive Follow (data : Bytes) : Nat → List ReadStep → Prop
  | nil (start : Nat) : Follow data start []
  | cons {s : ReadStep} {steps : List ReadStep} (hs : s.IsSound data)
      (hsteps : Follow data s.stop steps) : Follow data s.start (s :: steps)

/-- The positions of a run: the front of the buffer, and where each operation stopped. -/
def positions (steps : List ReadStep) : List Nat :=
  0 :: steps.map stop

/-- Positions never go back. -/
theorem Follow.pairwise {data : Bytes} {start : Nat} {steps : List ReadStep}
    (h : Follow data start steps) : (start :: steps.map stop).Pairwise (· ≤ ·) := by
  induction h with
  | nil start => exact List.pairwise_singleton _ _
  | cons hs _ ih =>
    rw [List.map_cons, List.pairwise_cons]
    refine ⟨?_, ih⟩
    -- Nothing lies before the position at which the first step stops, nor that before its start.
    rintro p (_ | ⟨_, hp⟩)
    · exact hs.start_le
    · exact Nat.le_trans hs.start_le ((List.pairwise_cons.mp ih).1 p hp)

theorem Follow.stop_le {data : Bytes} {start : Nat} {steps : List ReadStep}
    (h : Follow data start steps) : ∀ p ∈ steps.map stop, p ≤ data.length := by
  induction h with
  | nil start => exact fun p hp => absurd hp List.not_mem_nil
  | cons hs _ ih =>
    rw [List.map_cons]
    exact List.forall_mem_cons.mpr ⟨hs.stop_le, ih⟩

end ReadStep

namespace ReadOp

/-- **A step is sound** wherever in a buffer it begins. -/
theorem isSound_of_read (gone : Bytes) {op : ReadOp} {taken left : Bytes}
    {o : Except ReadError ReadValue} (h : op.read (taken ++ left) = (o, left)) :
    ReadStep.IsSound (gone ++ (taken ++ left))
      ⟨op, gone.length, o, gone.length + taken.length⟩ := by
  have hstart : (gone ++ (taken ++ left)).drop gone.length = taken ++ left := List.drop_left
  have hstop : (gone ++ (taken ++ left)).drop (gone.length + taken.length) = left := by
    rw [List.drop_length_add_append, List.drop_left]
  have hdecoded : ∀ v, o = .ok v → op.Decodes taken left v := by
    rintro v rfl
    obtain ⟨x, hx, hdecodes⟩ := read_eq_ok h
    rwa [List.append_cancel_right hx]
  have hfails : ∀ e, o = .error e → op.Fails (taken ++ left) e left := by
    rintro e rfl
    exact read_eq_error h
  exact {
    start_le := Nat.le_add_right _ _
    stop_le := by
      rw [List.length_append, List.length_append]
      exact Nat.add_le_add_left (Nat.le_add_right _ _) _
    reads := by
      rw [hstart, hstop]
      exact h
    decoded := fun v hv => by
      rw [hstart, hstop, Nat.add_sub_cancel_left, List.take_left]
      exact hdecoded v hv
    advances := fun v n hv hwidth => by
      rw [(hdecoded v hv).length_eq hwidth]
    fails := fun e he => by
      rw [hstart, hstop]
      exact hfails e he
    stays := fun e n he hwidth => by
      have htaken : [] ++ left = taken ++ left := (hfails e he).eq_of_width? hwidth
      rw [← List.append_cancel_right htaken]
      rfl
    passes := fun e he hwidth => by
      have hle := ((hfails e he).unfilled_of_width? hwidth).length_le
      rw [List.length_append] at hle
      rw [hstart]
      exact Nat.add_le_add_left (Nat.le_of_add_le_add_right hle) _ }

/-- **A run is sound** wherever in a buffer it begins: each step leaves an end of the buffer to the
next. -/
theorem follow_runFrom (ops : List ReadOp) : ∀ gone left : Bytes,
    ReadStep.Follow (gone ++ left) gone.length (runFrom (gone ++ left).length ops left) := by
  induction ops with
  | nil => exact fun gone left => .nil gone.length
  | cons op ops ih =>
    intro gone left
    cases hread : op.read left with
    | mk o next =>
      obtain ⟨taken, rfl⟩ := op.exists_taken hread
      have hstep : op.step (gone ++ (taken ++ next)).length (taken ++ next) =
          ⟨op, gone.length, o, gone.length + taken.length⟩ := by
        rw [step, Reader.run, hread]
        simp only [List.length_append, ReadStep.mk.injEq, true_and]
        omega
      have hgone : (gone ++ taken).length = gone.length + taken.length := List.length_append
      have hrest := ih (gone ++ taken) next
      rw [List.append_assoc, hgone] at hrest
      rw [runFrom, Reader.run, hread, hstep]
      exact .cons (isSound_of_read gone hread) hrest

theorem map_op_runFrom (size : Nat) (ops : List ReadOp) :
    ∀ left, (runFrom size ops left).map ReadStep.op = ops := by
  induction ops with
  | nil => exact fun _ => rfl
  | cons op ops ih =>
    intro left
    rw [runFrom, List.map_cons, ih]
    rfl

/-- **The position of a reader is sound through any row of successes and failures.** Every operation
is one step of the run, each begins where the one before it stopped, positions never go back and
never lie past the end of the buffer, and every step owes the buffer what `ReadStep.IsSound`
says. -/
theorem run_sound (ops : List ReadOp) (data : Bytes) :
    (run ops data).map ReadStep.op = ops ∧ ReadStep.Follow data 0 (run ops data) ∧
      (ReadStep.positions (run ops data)).Pairwise (· ≤ ·) ∧
      ∀ p ∈ ReadStep.positions (run ops data), p ≤ data.length := by
  have hfollow : ReadStep.Follow data 0 (run ops data) := follow_runFrom ops [] data
  refine ⟨map_op_runFrom data.length ops data, hfollow, hfollow.pairwise, ?_⟩
  exact List.forall_mem_cons.mpr ⟨Nat.zero_le _, hfollow.stop_le⟩

-- A number of eight bytes in front of seven, a length of five in front of four, a marker without its
-- digits and an array of two bytes in front of one: these fail, and the others go on from there.
example :
    ReadStep.positions (run [.field .uint64, .field .varBytes, .field .uint16, .field .varInt,
        .array 2, .field .uint8, .rest] [0xfd, 0x05, 0x00, 0x61, 0x62, 0xff, 0x01]) =
      [0, 0, 3, 5, 6, 6, 7, 7] := by
  decide

end ReadOp

end CashWallet
