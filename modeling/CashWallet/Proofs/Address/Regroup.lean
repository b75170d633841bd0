import CashWallet.Address.Basic
import Mathlib

/-!
# `CashWallet/Proofs/Address/Regroup.lean` — regrouping loses no bit

A row of groups is a row of bits (`rowBits`), and regrouping cuts the same bits elsewhere. What
filling up adds is fewer zeros than a group has, and what reading back allows to be left over is the
same, so **one relation describes both directions** (`IsFilled`): `e` are the groups of `d` in the
smaller size, and behind the bits of `d` stand fewer zeros than a group of `e` has.

* Filling up yields the related row (`filled_eq_ok_iff`), and there is only one.
* Reading back yields the row it is related to (`exact_eq_ok_iff`), when there is one.

All of it holds for widths `1 ≤ target ≤ source ≤ 8`. The invariant of the loop (`run_bits`) is that
the bits written and the bits pending are the bits read.

Uniqueness is a fact about bits and not about the loop: a row of groups is told by its bits, also
when something shorter than a group stands behind them (`eq_of_rowBits_append_eq`). It serves both
directions. Filling up cannot end in two ways, since the number of zeros is what completes a group;
and a row that is read back is the only one with these bits.
-/

set_option autoImplicit false

namespace CashWallet.Regroup

/-! ## Bits -/

/-- The `width` low bits of a number, highest first. -/
def bitsOf : Nat → Nat → List Bool
  | 0, _ => []
  | width + 1, n => n.testBit width :: bitsOf width n

@[simp] theorem length_bitsOf (width n : Nat) : (bitsOf width n).length = width := by
  induction width with
  | zero => rfl
  | succ width ih => simp [bitsOf, ih]

/-- The bits of a number may be cut anywhere. -/
theorem bitsOf_add (a b n : Nat) : bitsOf (a + b) n = bitsOf a (n >>> b) ++ bitsOf b n := by
  induction a with
  | zero => simp [bitsOf]
  | succ a ih =>
    have htop : n.testBit (a + b) = (n >>> b).testBit a := by
      rw [Nat.testBit_shiftRight, Nat.add_comm]
    rw [show a + 1 + b = (a + b) + 1 by omega, bitsOf, bitsOf, ih, htop, List.cons_append]

theorem bitsOf_congr {width a b : Nat} (h : ∀ i, i < width → a.testBit i = b.testBit i) :
    bitsOf width a = bitsOf width b := by
  induction width with
  | zero => rfl
  | succ width ih =>
    rw [bitsOf, bitsOf, h width (Nat.lt_succ_self _), ih fun i hi => h i (by omega)]

theorem bitsOf_mod (width n : Nat) : bitsOf width (n % 2 ^ width) = bitsOf width n := by
  apply bitsOf_congr
  intro i hi
  simp [Nat.testBit_mod_two_pow, hi]

theorem testBit_of_bitsOf_eq {width a b : Nat} (h : bitsOf width a = bitsOf width b) :
    ∀ i, i < width → a.testBit i = b.testBit i := by
  induction width with
  | zero => intro i hi; omega
  | succ width ih =>
    intro i hi
    rw [bitsOf, bitsOf, List.cons.injEq] at h
    by_cases hiw : i = width
    · rw [hiw]; exact h.1
    · exact ih h.2 i (by omega)

theorem eq_of_bitsOf_eq {width a b : Nat} (ha : a < 2 ^ width) (hb : b < 2 ^ width)
    (h : bitsOf width a = bitsOf width b) : a = b := by
  apply Nat.eq_of_testBit_eq
  intro i
  by_cases hi : i < width
  · exact testBit_of_bitsOf_eq h i hi
  · have hpow : 2 ^ width ≤ 2 ^ i := Nat.pow_le_pow_right (by decide) (by omega)
    rw [Nat.testBit_lt_two_pow (Nat.lt_of_lt_of_le ha hpow),
      Nat.testBit_lt_two_pow (Nat.lt_of_lt_of_le hb hpow)]

theorem bitsOf_zero (width : Nat) : bitsOf width 0 = List.replicate width false := by
  induction width with
  | zero => rfl
  | succ width ih => simp [bitsOf, ih, List.replicate_succ]

/-- The bits that a shift brings in are zeros. -/
theorem bitsOf_shiftLeft (a b n : Nat) :
    bitsOf (a + b) (n <<< b) = bitsOf a n ++ List.replicate b false := by
  have hlow : bitsOf b (n <<< b) = List.replicate b false := by
    rw [← bitsOf_zero]
    apply bitsOf_congr
    intro i hi
    have hout : ¬ b ≤ i := by omega
    simp only [Nat.testBit_shiftLeft, Nat.zero_testBit, ge_iff_le, hout, decide_false,
      Bool.false_and]
  rw [bitsOf_add, Nat.shiftLeft_shiftRight, hlow]

/-! ## Rows -/

/-- Every group has at most so many bits. -/
def Fits (width : Nat) (groups : Bytes) : Prop :=
  ∀ g ∈ groups, g.toNat < 2 ^ width

/-- The bits of a row of groups, one group after the other. -/
def rowBits (width : Nat) (groups : Bytes) : List Bool :=
  groups.flatMap fun g => bitsOf width g.toNat

theorem Fits.cons {width : Nat} {g : UInt8} {groups : Bytes} (hg : g.toNat < 2 ^ width)
    (h : Fits width groups) : Fits width (g :: groups) := by
  intro x hx
  rcases List.mem_cons.mp hx with rfl | hx
  · exact hg
  · exact h x hx

theorem Fits.head {width : Nat} {g : UInt8} {groups : Bytes} (h : Fits width (g :: groups)) :
    g.toNat < 2 ^ width :=
  h g List.mem_cons_self

theorem Fits.tail {width : Nat} {g : UInt8} {groups : Bytes} (h : Fits width (g :: groups)) :
    Fits width groups :=
  fun x hx => h x (List.mem_cons_of_mem _ hx)

theorem Fits.append {width : Nat} {a b : Bytes} (ha : Fits width a) (hb : Fits width b) :
    Fits width (a ++ b) := by
  intro g hg
  rcases List.mem_append.mp hg with h | h
  · exact ha g h
  · exact hb g h

theorem fits_eight (groups : Bytes) : Fits 8 groups :=
  fun g _ => g.toNat_lt

@[simp] theorem length_rowBits (width : Nat) (groups : Bytes) :
    (rowBits width groups).length = width * groups.length := by
  induction groups with
  | nil => rfl
  | cons g groups ih =>
    simp only [rowBits, List.flatMap_cons, List.length_append, length_bitsOf] at ih ⊢
    rw [ih, List.length_cons, Nat.mul_succ, Nat.add_comm]

theorem rowBits_append (width : Nat) (a b : Bytes) :
    rowBits width (a ++ b) = rowBits width a ++ rowBits width b := by
  simp [rowBits, List.flatMap_append]

/-- What is shorter than a group does not begin with one. -/
theorem ne_rowBits_cons_append {width : Nat} {x y : List Bool} (hx : x.length < width) (g : UInt8)
    (groups : Bytes) : x ≠ rowBits width (g :: groups) ++ y := by
  intro h
  have hlen := congrArg List.length h
  simp only [List.length_append, length_rowBits, List.length_cons, Nat.mul_succ] at hlen
  omega

/-- **A row is told by its bits**, also when something shorter than a group stands behind them. -/
theorem eq_of_rowBits_append_eq {width : Nat} :
    ∀ {a b : Bytes} {x y : List Bool}, Fits width a → Fits width b → x.length < width →
      y.length < width → rowBits width a ++ x = rowBits width b ++ y → a = b ∧ x = y := by
  intro a
  induction a with
  | nil =>
    intro b x y _ _ hx _ h
    cases b with
    | nil => exact ⟨rfl, by simpa [rowBits] using h⟩
    | cons g b => exact absurd h (ne_rowBits_cons_append hx g b)
  | cons f a ih =>
    intro b x y ha hb hx hy h
    cases b with
    | nil => exact absurd h.symm (ne_rowBits_cons_append hy f a)
    | cons g b =>
      -- Groups take equally many bits, so the first groups lie one upon the other.
      simp only [rowBits, List.flatMap_cons, List.append_assoc] at h
      obtain ⟨hfg, hrest⟩ := List.append_inj h (by simp)
      obtain ⟨hab, hxy⟩ := ih ha.tail hb.tail hx hy hrest
      have hf : f = g := UInt8.toNat_inj.1 (eq_of_bitsOf_eq ha.head hb.head hfg)
      exact ⟨by rw [hf, hab], hxy⟩

/-! ## One step of the loop -/

/-- The bits that do not yet make a group. -/
def Pending.toBits (p : Pending) : List Bool :=
  bitsOf p.bits p.value

theorem toBits_push {source : Nat} (p : Pending) {g : UInt8} (hg : g.toNat < 2 ^ source) :
    (push source p g).toBits = p.toBits ++ bitsOf source g.toNat := by
  have hhigh : (p.value <<< source + g.toNat) >>> source = p.value := by
    rw [Nat.shiftLeft_eq, Nat.shiftRight_eq_div_pow, Nat.add_comm,
      Nat.add_mul_div_right _ _ (Nat.two_pow_pos _), Nat.div_eq_of_lt hg, Nat.zero_add]
  have hlow : (p.value <<< source + g.toNat) % 2 ^ source = g.toNat := by
    rw [Nat.shiftLeft_eq, Nat.mul_comm, Nat.mul_add_mod, Nat.mod_eq_of_lt hg]
  simp only [Pending.toBits, push]
  rw [bitsOf_add, hhigh, ← bitsOf_mod source (p.value <<< source + g.toNat), hlow]

/-- The value of a group of at most eight bits is kept in a byte. -/
theorem toNat_ofNat_mod {width : Nat} (hw : width ≤ 8) (n : Nat) :
    (UInt8.ofNat (n % (1 <<< width))).toNat = n % 2 ^ width := by
  have hlt : n % 2 ^ width < 2 ^ width := Nat.mod_lt _ (Nat.two_pow_pos _)
  have hle : 2 ^ width ≤ 2 ^ 8 := Nat.pow_le_pow_right (by decide) hw
  rw [Nat.one_shiftLeft, UInt8.toNat_ofNat']
  exact Nat.mod_eq_of_lt (by omega)

theorem fits_wholeGroups {target : Nat} (ht : target ≤ 8) (p : Pending) :
    Fits target (wholeGroups target p) := by
  intro g hg
  obtain ⟨i, -, rfl⟩ := List.mem_map.mp hg
  rw [toNat_ofNat_mod ht]
  exact Nat.mod_lt _ (Nat.two_pow_pos _)

/-- The groups cut from the front of some bits, and the bits behind them. -/
theorem bitsOf_cut (target k r v : Nat) :
    bitsOf (target * k + r) v =
      ((List.range k).flatMap fun i => bitsOf target (v >>> (target * k + r - target * (i + 1)))) ++
        bitsOf r v := by
  induction k generalizing r with
  | zero => simp
  | succ k ih =>
    -- The last group is the one right before the rest.
    have hsum : target * (k + 1) + r = target * k + (target + r) := by rw [Nat.mul_succ]; omega
    have hlast : target * k + (target + r) - target * (k + 1) = r := by rw [Nat.mul_succ]; omega
    rw [hsum, ih, bitsOf_add target r v, List.range_succ, List.flatMap_append]
    simp only [List.flatMap_cons, List.flatMap_nil, List.append_nil, List.append_assoc, hlast]

/-- **Cutting loses no bit.** -/
theorem toBits_cut {target : Nat} (ht : target ≤ 8) (p : Pending) :
    p.toBits = rowBits target (wholeGroups target p) ++ (leftover target p).toBits := by
  have hsize : target * (p.bits / target) + p.bits % target = p.bits := Nat.div_add_mod _ _
  have hcut := bitsOf_cut target (p.bits / target) (p.bits % target) p.value
  rw [hsize] at hcut
  have hgroups : rowBits target (wholeGroups target p) =
      (List.range (p.bits / target)).flatMap fun i =>
        bitsOf target (p.value >>> (p.bits - target * (i + 1))) := by
    simp only [rowBits, wholeGroups, List.flatMap_map, toNat_ofNat_mod ht, bitsOf_mod]
  have hrest : (leftover target p).toBits = bitsOf (p.bits % target) p.value := by
    simp only [Pending.toBits, leftover, Nat.one_shiftLeft, bitsOf_mod]
  rw [hgroups, hrest, ← hcut, Pending.toBits]

/-- What is left over is less than a group, and its value fits its bits. -/
structure IsRest (target : Nat) (p : Pending) : Prop where
  bits_lt : p.bits < target
  value_lt : p.value < 2 ^ p.bits

theorem isRest_leftover {target : Nat} (ht : 0 < target) (p : Pending) :
    IsRest target (leftover target p) := by
  refine ⟨Nat.mod_lt _ ht, ?_⟩
  simp only [leftover, Nat.one_shiftLeft]
  exact Nat.mod_lt _ (Nat.two_pow_pos _)

theorem isRest_nothing {target : Nat} (ht : 0 < target) : IsRest target ⟨0, 0⟩ :=
  ⟨ht, by decide⟩

/-! ## The loop -/

/-- **The bits written and the bits pending are the bits read.** The groups written have the target
size, and what is pending at the end is less than a group. -/
theorem run_bits {source target : Nat} (ht : 0 < target) (ht8 : target ≤ 8) :
    ∀ {groups : Bytes} {p : Pending}, Fits source groups → IsRest target p →
      p.toBits ++ rowBits source groups =
          rowBits target (run source target p groups).1 ++ (run source target p groups).2.toBits ∧
        Fits target (run source target p groups).1 ∧ IsRest target (run source target p groups).2 := by
  intro groups
  induction groups with
  | nil =>
    intro p _ hp
    exact ⟨by simp [run, rowBits], by intro g hg; simp [run] at hg, hp⟩
  | cons g groups ih =>
    intro p hg hp
    -- The run goes on with what cutting leaves of the bits pending and the group.
    obtain ⟨hbits, hfits, hrest⟩ :=
      ih (p := leftover target (push source p g)) hg.tail (isRest_leftover ht _)
    refine ⟨?_, (fits_wholeGroups ht8 _).append hfits, hrest⟩
    have hrow : rowBits source (g :: groups) = bitsOf source g.toNat ++ rowBits source groups := rfl
    calc p.toBits ++ rowBits source (g :: groups)
        = (push source p g).toBits ++ rowBits source groups := by
          rw [hrow, toBits_push p hg.head, List.append_assoc]
      _ = rowBits target (wholeGroups target (push source p g)) ++
            ((leftover target (push source p g)).toBits ++ rowBits source groups) := by
          rw [toBits_cut ht8 (push source p g), List.append_assoc]
      _ = _ := by
          rw [hbits, ← List.append_assoc, ← rowBits_append]
          rfl

/-! ## Filling up and reading back -/

/-- That `e` are the groups of `d` in another size, the last one filled up with zeros. -/
structure IsFilled (source target : Nat) (d e : Bytes) : Prop where
  fits_source : Fits source d
  fits_target : Fits target e
  filling : ∃ k, k < target ∧ rowBits target e = rowBits source d ++ List.replicate k false

/-- The last group has the bits that were pending, and zeros behind them. -/
theorem rowBits_fill {target : Nat} (ht8 : target ≤ 8) {p : Pending} (hp : IsRest target p) :
    ∃ k, k < target ∧ rowBits target (fill target p) = p.toBits ++ List.replicate k false ∧
      Fits target (fill target p) := by
  unfold fill
  -- Without pending bits no group is added.
  by_cases h0 : p.bits = 0
  · refine ⟨0, Nat.lt_of_le_of_lt (Nat.zero_le _) hp.bits_lt, ?_, ?_⟩
    · rw [if_pos h0]
      simp [rowBits, Pending.toBits, h0, bitsOf]
    · rw [if_pos h0]
      intro g hg
      simp at hg
  · have hlt := hp.bits_lt
    have hwidth : target = p.bits + (target - p.bits) := by omega
    refine ⟨target - p.bits, by omega, ?_, ?_⟩
    · rw [if_neg h0]
      simp only [rowBits, List.flatMap_cons, List.flatMap_nil, List.append_nil,
        toNat_ofNat_mod ht8, bitsOf_mod]
      calc bitsOf target (p.value <<< (target - p.bits))
          = bitsOf (p.bits + (target - p.bits)) (p.value <<< (target - p.bits)) := by
            rw [← hwidth]
        _ = p.toBits ++ List.replicate (target - p.bits) false := bitsOf_shiftLeft _ _ _
    · rw [if_neg h0]
      intro g hg
      rw [List.mem_singleton.mp hg, toNat_ofNat_mod ht8]
      exact Nat.mod_lt _ (Nat.two_pow_pos _)

theorem isFilled_padded {source target : Nat} (ht : 0 < target) (ht8 : target ≤ 8) {d : Bytes}
    (hd : Fits source d) : IsFilled source target d (padded source target d) := by
  obtain ⟨hbits, hfits, hrest⟩ := run_bits ht ht8 hd (isRest_nothing ht)
  obtain ⟨k, hk, hfill, hfillFits⟩ := rowBits_fill ht8 hrest
  refine ⟨hd, hfits.append hfillFits, k, hk, ?_⟩
  have hstart : Pending.toBits ⟨0, 0⟩ = [] := rfl
  rw [hstart, List.nil_append] at hbits
  calc rowBits target (padded source target d)
      = rowBits target (run source target ⟨0, 0⟩ d).1 ++
          rowBits target (fill target (run source target ⟨0, 0⟩ d).2) := rowBits_append _ _ _
    _ = rowBits source d ++ List.replicate k false := by
        rw [hfill, ← List.append_assoc, ← hbits]

/-- A row has one filled form: the number of zeros behind its bits is what completes a group. -/
theorem IsFilled.unique_target {source target : Nat} (ht : 0 < target) {d e f : Bytes}
    (he : IsFilled source target d e) (hf : IsFilled source target d f) : e = f := by
  obtain ⟨-, hefits, k, hk, hke⟩ := he
  obtain ⟨-, hffits, l, hl, hlf⟩ := hf
  have hlk : l = k := by
    have h₁ := congrArg List.length hke
    have h₂ := congrArg List.length hlf
    simp only [length_rowBits, List.length_append, List.length_replicate] at h₁ h₂
    -- Both complete the same number of bits to a multiple of the width.
    have hmod : (source * d.length + k) % target = (source * d.length + l) % target := by
      rw [← h₁, ← h₂, Nat.mul_mod_right, Nat.mul_mod_right]
    have hk' := Nat.ModEq.add_left_cancel' (source * d.length) hmod
    rw [Nat.ModEq, Nat.mod_eq_of_lt hk, Nat.mod_eq_of_lt hl] at hk'
    exact hk'.symm
  have hsame : rowBits target e ++ [] = rowBits target f ++ [] := by
    rw [hke, hlf, hlk]
  have hnil : ([] : List Bool).length < target := ht
  exact (eq_of_rowBits_append_eq hefits hffits hnil hnil hsame).1

/-! ## The two functions -/

theorem isFilling_iff {width : Nat} {p : Pending} :
    isFilling width p = true ↔ p.bits < width ∧ p.value = 0 := by
  simp only [isFilling, Bool.and_eq_true, decide_eq_true_eq, beq_iff_eq]

theorem toBits_eq_replicate_iff {target : Nat} {p : Pending} (hp : IsRest target p) (k : Nat) :
    p.toBits = List.replicate k false ↔ p.bits = k ∧ p.value = 0 := by
  constructor
  · intro h
    have hbits : p.bits = k := by
      have hlen := congrArg List.length h
      rwa [Pending.toBits, length_bitsOf, List.length_replicate] at hlen
    refine ⟨hbits, eq_of_bitsOf_eq hp.value_lt (Nat.two_pow_pos _) ?_⟩
    rw [bitsOf_zero, ← Pending.toBits, h, hbits]
  · rintro ⟨rfl, hvalue⟩
    rw [Pending.toBits, hvalue, bitsOf_zero]

theorem tooWide?_eq_none_iff {width : Nat} {groups : Bytes} :
    tooWide? width groups = none ↔ Fits width groups := by
  simp only [tooWide?, List.find?_eq_none, Fits, bne_iff_ne, ne_eq, not_not]
  refine forall₂_congr fun g _ => ?_
  rw [Nat.shiftRight_eq_div_pow, Nat.div_eq_zero_iff]
  have : 2 ^ width ≠ 0 := (Nat.two_pow_pos _).ne'
  tauto

/-- **Filling up yields the filled form**, when every group fits. -/
theorem filled_eq_ok_iff {source target : Nat} (ht : 0 < target) (ht8 : target ≤ 8)
    {d e : Bytes} : filled source target d = .ok e ↔ IsFilled source target d e := by
  unfold filled
  cases hw : tooWide? source d with
  | some v =>
    simp only [reduceCtorEq, false_iff]
    intro h
    rw [tooWide?_eq_none_iff.mpr h.fits_source] at hw
    cases hw
  | none =>
    have hpad := isFilled_padded ht ht8 (tooWide?_eq_none_iff.mp hw)
    simp only [Except.ok.injEq]
    constructor
    · rintro rfl
      exact hpad
    · exact fun h => hpad.unique_target ht h

/-- **Reading back yields the row whose filled form is read**, and fails when there is none. -/
theorem exact_eq_ok_iff {source target : Nat} (ht : 0 < target) (hts : target ≤ source)
    (hs8 : source ≤ 8) {d e : Bytes} :
    exact target source e = .ok d ↔ IsFilled source target d e := by
  have hs : 0 < source := Nat.lt_of_lt_of_le ht hts
  unfold exact
  cases hw : tooWide? target e with
  | some v =>
    simp only [reduceCtorEq, false_iff]
    intro h
    rw [tooWide?_eq_none_iff.mpr h.fits_target] at hw
    cases hw
  | none =>
    have he := tooWide?_eq_none_iff.mp hw
    obtain ⟨hbits, hfits, hrest⟩ := run_bits hs hs8 he (isRest_nothing hs)
    rw [show Pending.toBits ⟨0, 0⟩ = [] from rfl, List.nil_append] at hbits
    generalize hrun : run target source ⟨0, 0⟩ e = result at hbits hfits hrest
    obtain ⟨out, last⟩ := result
    simp only at hbits hfits hrest ⊢
    constructor
    · intro h
      split at h
      · next hfill =>
        cases h
        obtain ⟨hlt, hvalue⟩ := isFilling_iff.mp hfill
        refine ⟨hfits, he, last.bits, hlt, ?_⟩
        rw [hbits, (toBits_eq_replicate_iff hrest _).mpr ⟨rfl, hvalue⟩]
      · cases h
    · rintro ⟨hdfits, -, k, hk, hke⟩
      -- What is pending and the zeros that fill up are both shorter than a group.
      have hlast : last.toBits.length < source := by
        rw [Pending.toBits, length_bitsOf]
        exact hrest.bits_lt
      have hzeros : (List.replicate k false).length < source := by
        rw [List.length_replicate]
        exact Nat.lt_of_lt_of_le hk hts
      obtain ⟨hout, hzero⟩ :=
        eq_of_rowBits_append_eq hfits hdfits hlast hzeros (hbits.symm.trans hke)
      obtain ⟨hlen, hvalue⟩ := (toBits_eq_replicate_iff hrest k).mp hzero
      rw [if_pos (isFilling_iff.mpr ⟨by rw [hlen]; exact hk, hvalue⟩), hout]

end CashWallet.Regroup
