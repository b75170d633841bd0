import CashWallet.Proofs.Text.Utf8
import Mathlib.Algebra.Group.Nat.Defs
import Mathlib.Data.List.Basic

/-!
# `CashWallet/Proofs/Text/Lossy.lean` — zeros in a text come from zeros in the bytes

Commands and user agents arrive as bytes from strangers and are read as text, whatever they are.
What must not happen is that a zero turns up in the text which was not in the bytes: zeros are what
a command ends at and what a text is padded with. **A text that was read has a zero only where there
was one** (`zero_notMem_ofUtf8Lossy`), and the text of a padded field never ends in one
(`getLast?_paddedText`).

Reading is a machine that takes one byte at a time (`advance`), and a text comes from a run of it.
What a run keeps is that the character that was begun can only become one that is written in as many
bytes (`Partial.IsOpen`): the values that are left to it are all code points, and none is zero. This
is what the narrowed ranges of `lead` are for, and a range that let an overlong form through would
break it, for the two bytes `c0 80` would then be a zero.

For the end of a text one more thing is needed: a last byte that is no zero shows up. Every byte
yields a character or leaves one begun (`advance_ne`), and one that is begun at the end is replaced,
so the last character is one that this byte yields or leaves begun.
-/

set_option autoImplicit false

namespace CashWallet.Text

/-! ## One byte as a step -/

/-- What a byte between two characters yields, and the character that it leaves begun. -/
def start (b : UInt8) : List Char × Option Partial :=
  match lead b with
  | .char c => ([c], none)
  | .opens p => ([], some p)
  | .invalid => ([replacement], none)

/-- What a byte yields, and the character that is begun behind it. -/
def advance : Option Partial → UInt8 → List Char × Option Partial
  | none, b => start b
  | some p, b =>
    if p.lowest ≤ b.toNat ∧ b.toNat ≤ p.highest then
      match p.more with
      | 0 => ([Char.ofNat (p.bits * 64 + b.toNat % 64)], none)
      | more + 1 => ([], some ⟨p.bits * 64 + b.toNat % 64, more, 0x80, 0xbf⟩)
    else (replacement :: (start b).1, (start b).2)

theorem fresh_eq (b : UInt8) (rest : Bytes) :
    decodeFrom.fresh b rest = (start b).1 ++ decodeFrom (start b).2 rest := by
  unfold decodeFrom.fresh start
  cases lead b with
  | char c => rfl
  | opens p => rfl
  | invalid => rfl

theorem decodeFrom_none_nil : decodeFrom none [] = [] := by
  rw [decodeFrom]

theorem decodeFrom_some_nil (p : Partial) : decodeFrom (some p) [] = [replacement] := by
  rw [decodeFrom]

/-- Reading is taking one byte after the other. -/
theorem decodeFrom_cons (state : Option Partial) (b : UInt8) (rest : Bytes) :
    decodeFrom state (b :: rest) =
      (advance state b).1 ++ decodeFrom (advance state b).2 rest := by
  cases state with
  | none =>
    rw [decodeFrom, advance]
    exact fresh_eq b rest
  | some p =>
    rw [decodeFrom, advance]
    by_cases hinside : p.lowest ≤ b.toNat ∧ b.toNat ≤ p.highest
    · simp only [if_pos hinside]
      obtain ⟨bits, more, lowest, highest⟩ := p
      cases more with
      | zero => rfl
      | succ more => rfl
    · simp only [if_neg hinside, fresh_eq, List.cons_append]

/-- Bytes that no character has are read one by one. -/
theorem decodeFrom_replicate {b : UInt8} (h : lead b = .invalid) (n : Nat) :
    decodeFrom none (List.replicate n b) = List.replicate n replacement := by
  induction n with
  | zero => exact decodeFrom_none_nil
  | succ n ih =>
    have hstart : advance none b = ([replacement], none) := by
      rw [advance, start, h]
    rw [List.replicate_succ, decodeFrom_cons, hstart, ih]
    rfl

/-! ## The characters that a begun one can become -/

namespace Partial

/-- The least value that is left. -/
def least (p : Partial) : Nat :=
  (p.bits * 64 + (p.lowest - 0x80)) * 64 ^ p.more

/-- The first value past those that are left. -/
def bound (p : Partial) : Nat :=
  (p.bits * 64 + (p.highest - 0x80) + 1) * 64 ^ p.more

/-- All values that are left are code points other than zero. -/
structure IsOpen (p : Partial) : Prop where
  lowest : 0x80 ≤ p.lowest
  highest : p.highest ≤ 0xbf
  pos : 0 < p.least
  valid : p.bound ≤ 0xd800 ∨ 0xe000 ≤ p.least ∧ p.bound ≤ 0x110000

/-- A character whose next byte may be any that goes on with one. -/
def wide (bits more : Nat) : Partial :=
  ⟨bits, more, 0x80, 0xbf⟩

theorem least_wide (bits more : Nat) : (wide bits more).least = bits * 64 ^ (more + 1) := by
  rw [least, wide, Nat.sub_self, Nat.add_zero, Nat.pow_succ, Nat.mul_assoc, Nat.mul_comm 64]

theorem bound_wide (bits more : Nat) : (wide bits more).bound = (bits + 1) * 64 ^ (more + 1) := by
  have hlast : bits * 64 + (0xbf - 0x80) + 1 = (bits + 1) * 64 := by
    omega
  simp only [bound, wide, hlast, Nat.pow_succ, Nat.mul_assoc, Nat.mul_comm 64]

theorem isOpen_wide {bits more : Nat} (hpos : 0 < bits)
    (hvalid : (bits + 1) * 64 ^ (more + 1) ≤ 0xd800 ∨
      0xe000 ≤ bits * 64 ^ (more + 1) ∧ (bits + 1) * 64 ^ (more + 1) ≤ 0x110000) :
    (wide bits more).IsOpen := by
  refine ⟨Nat.le_refl _, Nat.le_refl _, ?_, ?_⟩
  · rw [least_wide]
    exact Nat.mul_pos hpos (Nat.pow_pos (by decide))
  · rw [least_wide, bound_wide]
    exact hvalid

namespace IsOpen

variable {p : Partial} {n : Nat}

/-- A byte in the range leaves some of the values that were left. -/
theorem next (h : p.IsOpen) {more : Nat} (hmore : p.more = more + 1) (hlow : p.lowest ≤ n)
    (hhigh : n ≤ p.highest) : (wide (p.bits * 64 + n % 64) more).IsOpen := by
  have hlowest := h.lowest
  have hhighest := h.highest
  have hpos := h.pos
  have hvalid := h.valid
  have hleast : p.least ≤ (p.bits * 64 + n % 64) * 64 ^ (more + 1) := by
    rw [least, hmore]
    exact Nat.mul_le_mul_right _ (by omega)
  have hbound : (p.bits * 64 + n % 64 + 1) * 64 ^ (more + 1) ≤ p.bound := by
    rw [bound, hmore]
    exact Nat.mul_le_mul_right _ (by omega)
  refine isOpen_wide ?_ (by omega)
  exact Nat.pos_of_mul_pos_right (Nat.lt_of_lt_of_le hpos hleast)

/-- The last byte makes a character that is not zero. -/
theorem last (h : p.IsOpen) (hmore : p.more = 0) (hlow : p.lowest ≤ n) (hhigh : n ≤ p.highest) :
    Char.ofNat (p.bits * 64 + n % 64) ≠ '\x00' := by
  have hlowest := h.lowest
  have hhighest := h.highest
  have hpos := h.pos
  have hvalid := h.valid
  simp only [least, bound, hmore, Nat.pow_zero, Nat.mul_one] at hpos hvalid
  have hchar : (p.bits * 64 + n % 64).isValidChar := by
    unfold Nat.isValidChar
    omega
  intro hzero
  have hvalue := congrArg Char.toNat hzero
  rw [Char.ofNat, dif_pos hchar] at hvalue
  replace hvalue : p.bits * 64 + n % 64 = 0 := hvalue
  omega

end IsOpen

end Partial

/-- **The first byte of a character leaves only such values.** -/
theorem isOpen_of_lead {b : UInt8} {p : Partial} (h : lead b = .opens p) : p.IsOpen := by
  have hb := b.toNat_lt
  unfold lead at h
  by_cases h80 : b.toNat < 0x80
  · simp only [if_pos h80] at h
    cases h
  simp only [if_neg h80] at h
  by_cases hc2 : b.toNat < 0xc2
  · rw [if_pos hc2] at h
    cases h
  rw [if_neg hc2] at h
  by_cases he0 : b.toNat < 0xe0
  · rw [if_pos he0] at h
    obtain rfl := Lead.opens.inj h
    exact Partial.isOpen_wide (by omega) (by omega)
  rw [if_neg he0] at h
  -- The range behind `e0` leaves out what two bytes can say, zero included; the one behind `f0`
  -- what three can.
  by_cases h0 : b.toNat = 0xe0
  · rw [if_pos h0] at h
    cases h
    exact ⟨by decide, by decide, by decide, by decide⟩
  rw [if_neg h0] at h
  -- The range behind `ed` leaves out the surrogates.
  by_cases hd : b.toNat = 0xed
  · rw [if_pos hd] at h
    cases h
    exact ⟨by decide, by decide, by decide, by decide⟩
  rw [if_neg hd] at h
  by_cases hf0 : b.toNat < 0xf0
  · rw [if_pos hf0] at h
    obtain rfl := Lead.opens.inj h
    exact Partial.isOpen_wide (by omega) (by omega)
  rw [if_neg hf0] at h
  by_cases h0' : b.toNat = 0xf0
  · rw [if_pos h0'] at h
    cases h
    exact ⟨by decide, by decide, by decide, by decide⟩
  rw [if_neg h0'] at h
  by_cases hf4 : b.toNat < 0xf4
  · rw [if_pos hf4] at h
    obtain rfl := Lead.opens.inj h
    exact Partial.isOpen_wide (by omega) (by omega)
  rw [if_neg hf4] at h
  -- The range behind `f4` ends with the last code point.
  by_cases h4 : b.toNat = 0xf4
  · rw [if_pos h4] at h
    cases h
    exact ⟨by decide, by decide, by decide, by decide⟩
  · rw [if_neg h4] at h
    cases h

/-- A byte that is a character of its own is its number. -/
theorem toNat_of_lead {b : UInt8} {c : Char} (h : lead b = .char c) : c.toNat = b.toNat := by
  unfold lead at h
  by_cases h80 : b.toNat < 0x80
  · rw [if_pos h80] at h
    obtain rfl := Lead.char.inj h
    have hchar : b.toNat.isValidChar := .inl (by omega)
    rw [Char.ofNat, dif_pos hchar]
    rfl
  · -- All other bytes begin a longer character or none.
    simp only [if_neg h80] at h
    split_ifs at h

/-! ## Steps and runs -/

/-- A character that is begun, if any, can still become one. -/
def IsSound (state : Option Partial) : Prop :=
  ∀ p, state = some p → p.IsOpen

theorem isSound_none : IsSound none := by
  intro p h
  cases h

theorem isSound_start (b : UInt8) : IsSound (start b).2 := by
  intro p h
  unfold start at h
  cases hlead : lead b with
  | char c =>
    rw [hlead] at h
    cases h
  | opens q =>
    rw [hlead] at h
    cases h
    exact isOpen_of_lead hlead
  | invalid =>
    rw [hlead] at h
    cases h

theorem eq_zero_of_mem_start {b : UInt8} (h : '\x00' ∈ (start b).1) : b = 0 := by
  unfold start at h
  cases hlead : lead b with
  | char c =>
    rw [hlead] at h
    have hzero := toNat_of_lead hlead
    rw [← List.mem_singleton.mp h] at hzero
    exact UInt8.toNat_inj.mp hzero.symm
  | opens q =>
    rw [hlead] at h
    cases h
  | invalid =>
    rw [hlead] at h
    exact absurd (List.mem_singleton.mp h) (by decide)

/-- **One step** keeps that the character that is begun can become one, and yields a zero only for a
zero. -/
theorem advance_keeps {state : Option Partial} (h : IsSound state) (b : UInt8) :
    IsSound (advance state b).2 ∧ ('\x00' ∈ (advance state b).1 → b = 0) := by
  cases state with
  | none => exact ⟨isSound_start b, eq_zero_of_mem_start⟩
  | some p =>
    have hopen := h p rfl
    rw [advance]
    by_cases hinside : p.lowest ≤ b.toNat ∧ b.toNat ≤ p.highest
    · rw [if_pos hinside]
      cases hmore : p.more with
      | zero =>
        refine ⟨isSound_none, fun hzero => ?_⟩
        exact absurd (List.mem_singleton.mp hzero).symm (hopen.last hmore hinside.1 hinside.2)
      | succ more =>
        refine ⟨?_, fun hzero => absurd hzero List.not_mem_nil⟩
        rintro q ⟨⟩
        exact hopen.next hmore hinside.1 hinside.2
    · rw [if_neg hinside]
      refine ⟨isSound_start b, fun hzero => ?_⟩
      obtain hzero | hzero := List.mem_cons.mp hzero
      · exact absurd hzero (by decide)
      · exact eq_zero_of_mem_start hzero

/-- What some bytes yield, and the character that is begun behind them. -/
def run : Option Partial → Bytes → List Char × Option Partial
  | state, [] => ([], state)
  | state, b :: bs =>
    ((advance state b).1 ++ (run (advance state b).2 bs).1, (run (advance state b).2 bs).2)

theorem decodeFrom_append (rest : Bytes) (b : Bytes) :
    ∀ state, decodeFrom state (b ++ rest) =
      (run state b).1 ++ decodeFrom (run state b).2 rest := by
  induction b with
  | nil => exact fun _ => rfl
  | cons c b ih =>
    intro state
    rw [List.cons_append, decodeFrom_cons, ih, run, List.append_assoc]

/-- **A run** keeps it, too, and yields a zero only when there is one. -/
theorem run_keeps (b : Bytes) :
    ∀ {state : Option Partial}, IsSound state →
      IsSound (run state b).2 ∧ ('\x00' ∈ (run state b).1 → 0 ∈ b) := by
  induction b with
  | nil => exact fun h => ⟨h, fun hzero => absurd hzero List.not_mem_nil⟩
  | cons c b ih =>
    intro state h
    obtain ⟨hstep, hzero⟩ := advance_keeps h c
    obtain ⟨hrun, hzeros⟩ := ih hstep
    refine ⟨hrun, fun hmem => ?_⟩
    obtain hmem | hmem := List.mem_append.mp hmem
    · rw [hzero hmem]
      exact List.mem_cons_self
    · exact List.mem_cons_of_mem c (hzeros hmem)

/-! ## What is read -/

theorem zero_mem_of_decodeFrom {state : Option Partial} (h : IsSound state) {b : Bytes}
    (hzero : '\x00' ∈ decodeFrom state b) : 0 ∈ b := by
  have hrun := decodeFrom_append [] b state
  rw [List.append_nil] at hrun
  rw [hrun] at hzero
  obtain hzero | hzero := List.mem_append.mp hzero
  · exact (run_keeps b h).2 hzero
  · -- What was begun when the bytes end is a replacement.
    cases hstate : (run state b).2 with
    | none =>
      rw [hstate, decodeFrom_none_nil] at hzero
      cases hzero
    | some p =>
      rw [hstate, decodeFrom_some_nil] at hzero
      exact absurd (List.mem_singleton.mp hzero) (by decide)

/-- **A text has a zero only where there was one in the bytes.** -/
theorem zero_notMem_ofUtf8Lossy {b : Bytes} (h : 0 ∉ b) : '\x00' ∉ (ofUtf8Lossy b).toList := by
  rw [ofUtf8Lossy, String.toList_ofList]
  exact fun hzero => h (zero_mem_of_decodeFrom isSound_none hzero)

theorem start_ne (b : UInt8) : (start b).1 ≠ [] ∨ (start b).2 ≠ none := by
  unfold start
  cases lead b with
  | char c => exact .inl (List.cons_ne_nil _ _)
  | opens p => exact .inr (Option.some_ne_none p)
  | invalid => exact .inl (List.cons_ne_nil _ _)

theorem advance_ne (state : Option Partial) (b : UInt8) :
    (advance state b).1 ≠ [] ∨ (advance state b).2 ≠ none := by
  cases state with
  | none => exact start_ne b
  | some p =>
    rw [advance]
    by_cases hinside : p.lowest ≤ b.toNat ∧ b.toNat ≤ p.highest
    · rw [if_pos hinside]
      cases p.more with
      | zero => exact .inl (List.cons_ne_nil _ _)
      | succ more => exact .inr (Option.some_ne_none _)
    · rw [if_neg hinside]
      exact .inl (List.cons_ne_nil _ _)

/-- No byte is passed over in silence. -/
theorem decodeFrom_singleton_ne_nil (state : Option Partial) (b : UInt8) :
    decodeFrom state [b] ≠ [] := by
  rw [decodeFrom_cons]
  obtain h | h := advance_ne state b
  · exact List.append_ne_nil_of_left_ne_nil h _
  · cases hstate : (advance state b).2 with
    | none => exact absurd hstate h
    | some p =>
      rw [decodeFrom_some_nil]
      exact List.append_ne_nil_of_right_ne_nil _ (List.cons_ne_nil _ _)

theorem getLast?_decodeFrom {b : Bytes} {last : UInt8} (h : last ≠ 0) :
    (decodeFrom none (b ++ [last])).getLast? ≠ some '\x00' := by
  obtain ⟨hsound, -⟩ := run_keeps b isSound_none
  rw [decodeFrom_append, List.getLast?_append_of_ne_nil _ (decodeFrom_singleton_ne_nil _ _)]
  intro hzero
  have hmem := zero_mem_of_decodeFrom hsound (List.mem_of_getLast? hzero)
  exact h (List.mem_singleton.mp hmem).symm

end CashWallet.Text

namespace CashWallet

/-- **The text of a padded field does not end in a zero.** -/
theorem getLast?_paddedText (b : Bytes) : (paddedText b).toList.getLast? ≠ some '\x00' := by
  rw [paddedText, Text.ofUtf8Lossy, String.toList_ofList]
  cases hkept : b.reverse.dropWhile (· == 0) with
  | nil =>
    rw [List.reverse_nil, Text.decodeFrom_none_nil]
    intro h
    cases h
  | cons last init =>
    rw [List.reverse_cons]
    refine Text.getLast?_decodeFrom ?_
    rintro rfl
    have := List.head?_dropWhile_not (· == (0 : UInt8)) b.reverse
    rw [hkept] at this
    cases this

end CashWallet
