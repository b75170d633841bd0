import CashWallet.Proofs.Address.Regroup

/-!
# `CashWallet/Proofs/Address/Checksum.lean` — eight groups complete a row in exactly one way

The checksum is a remainder, and remainders are linear: **a step of the exclusive or of two states
and two groups is the exclusive or of the two steps** (`step_xor`). Two facts make it useful:

* up to eight groups that follow the zero state are not reduced at all, they are the remainder,
  written in groups of five bits (`run_zero_eq_number`);
* so eight groups behind any row add themselves to what eight zeros would have left there
  (`run_eq_xor_number`), and the remainder is zero for one choice of them only
  (`polymod_append_eq_zero_iff`).

The bounds are those of the state, 40 bits of which every step keeps (`run_lt`).

Nothing here needs the field of 32 elements or the polynomial that the checksum was made from. That
the remainder of a row is the one modulo that polynomial is true, but what a wallet depends on is
linearity and the number of groups that are kept, and both can be seen on the bits.
-/

set_option autoImplicit false

namespace CashWallet.Checksum

open Regroup

/-! ## Linearity -/

/-- The five constants one by one, as the proofs below need them. -/
theorem feedback_eq (out : Nat) :
    feedback out =
      (if out.testBit 0 then 0x98f2bc8e61 else 0) ^^^ (if out.testBit 1 then 0x79b76d99e2 else 0) ^^^
        (if out.testBit 2 then 0xf33e5fb3c4 else 0) ^^^
        (if out.testBit 3 then 0xae2eabe2a8 else 0) ^^^
        (if out.testBit 4 then 0x1e4f43e470 else 0) := by
  simp only [feedback, generators, List.zipIdx_cons, List.zipIdx_nil, List.foldl_cons,
    List.foldl_nil, Nat.zero_add]
  cases out.testBit 0 <;> cases out.testBit 1 <;> cases out.testBit 2 <;> cases out.testBit 3 <;>
    cases out.testBit 4 <;> decide

/-- A choice by an exclusive or is the exclusive or of the choices. -/
theorem ite_xor (p q : Bool) (g : Nat) :
    (if (p ^^ q) = true then g else 0) = (if p then g else 0) ^^^ (if q then g else 0) := by
  cases p <;> cases q <;> simp

/-- What is added back is linear in what was shifted out. -/
theorem feedback_xor (a b : Nat) : feedback (a ^^^ b) = feedback a ^^^ feedback b := by
  simp only [feedback_eq, Nat.testBit_xor, ite_xor]
  ac_rfl

theorem feedback_zero : feedback 0 = 0 := by
  decide

/-- **A step is linear over exclusive or.** -/
theorem step_xor (s t g h : Nat) : step (s ^^^ t) (g ^^^ h) = step s g ^^^ step t h := by
  -- Masks, shifts and the feedback each distribute; what is left is the order of the terms.
  simp only [step, Nat.and_xor_distrib_right, Nat.shiftLeft_xor_distrib,
    Nat.shiftRight_xor_distrib, feedback_xor]
  ac_rfl

theorem run_append (s : Nat) (a b : Bytes) : run s (a ++ b) = run (run s a) b := by
  simp [run, List.foldl_append]

theorem run_xor (s t : Nat) : ∀ (a b : Bytes), a.length = b.length →
    run (s ^^^ t) (List.zipWith (· ^^^ ·) a b) = run s a ^^^ run t b := by
  intro a
  induction a generalizing s t with
  | nil =>
    intro b hb
    cases b with
    | nil => rfl
    | cons y b => simp at hb
  | cons x a ih =>
    intro b hb
    cases b with
    | nil => simp at hb
    | cons y b =>
      have hlen : a.length = b.length := by simpa using hb
      have hstep : step (s ^^^ t) (x ^^^ y).toNat = step s x.toNat ^^^ step t y.toNat := by
        rw [UInt8.toNat_xor, step_xor]
      show run (step (s ^^^ t) (x ^^^ y).toNat) (List.zipWith (· ^^^ ·) a b) = _
      rw [hstep]
      exact ih _ _ b hlen

/-! ## Bounds -/

/-- The bound of the state. -/
def stateBound : Nat := 0x10000000000

theorem feedback_lt (out : Nat) : feedback out < stateBound := by
  rw [feedback_eq]
  cases out.testBit 0 <;> cases out.testBit 1 <;> cases out.testBit 2 <;> cases out.testBit 3 <;>
    cases out.testBit 4 <;> decide

theorem xor_lt_stateBound {a b : Nat} (ha : a < stateBound) (hb : b < stateBound) :
    a ^^^ b < stateBound :=
  Nat.xor_lt_two_pow (n := 40) ha hb

/-- A step keeps 40 bits, whatever the state before it. -/
theorem step_lt (s : Nat) (g : UInt8) : step s g.toNat < stateBound := by
  have hlow : (s &&& 0x7ffffffff) <<< 5 < stateBound := by
    have := Nat.and_le_right (n := s) (m := 0x7ffffffff)
    rw [Nat.shiftLeft_eq]
    simp only [stateBound]
    omega
  have hg : g.toNat < stateBound := by
    have := g.toNat_lt
    simp only [stateBound]
    omega
  exact xor_lt_stateBound (xor_lt_stateBound hlow hg) (feedback_lt _)

theorem run_lt {s : Nat} (hs : s < stateBound) (groups : Bytes) : run s groups < stateBound := by
  induction groups generalizing s with
  | nil => exact hs
  | cons g groups ih => exact ih (step_lt s g)

theorem polymod_lt (groups : Bytes) : polymod groups < stateBound :=
  xor_lt_stateBound (run_lt (by decide) groups) (by decide)

/-! ## Eight groups and their number -/

/-- The number that groups of five bits write behind a number already written, highest first. -/
def number (start : Nat) (groups : Bytes) : Nat :=
  groups.foldl (fun n g => n * 32 + g.toNat) start

/-- Where nothing is shifted out a step appends its group. -/
theorem step_of_lt {s g : Nat} (hs : s < 0x800000000) (hg : g < 32) : step s g = s * 32 + g := by
  have hmask : s &&& 0x7ffffffff = s := by
    rw [show (0x7ffffffff : Nat) = 2 ^ 35 - 1 from rfl, Nat.and_two_pow_sub_one_eq_mod]
    exact Nat.mod_eq_of_lt hs
  have hout : s >>> 35 = 0 := by
    rw [Nat.shiftRight_eq_div_pow]
    exact Nat.div_eq_of_lt hs
  have hor : s * 32 ^^^ g = s * 32 + g := by
    -- The group stands where the shift left zeros, so nothing is carried.
    have := Nat.two_pow_add_eq_or_of_lt (i := 5) hg s
    rw [Nat.mul_comm s, show (32 : Nat) = 2 ^ 5 from rfl, this]
    apply Nat.eq_of_testBit_eq
    intro i
    rw [Nat.testBit_xor, Nat.testBit_or, Nat.testBit_two_pow_mul]
    by_cases hi : 5 ≤ i
    · have hpow : (2 : Nat) ^ 5 ≤ 2 ^ i := Nat.pow_le_pow_right (by decide) hi
      have hgi : g.testBit i = false := Nat.testBit_lt_two_pow (Nat.lt_of_lt_of_le hg hpow)
      simp [hgi]
    · simp [hi]
  rw [step, hmask, hout, feedback_zero, Nat.xor_zero, Nat.shiftLeft_eq, hor]

/-- While 40 bits hold the number, the remainder is the number. The bound is that of the groups
still to come. -/
theorem run_eq_number {s : Nat} {groups : Bytes} (hg : Fits 5 groups)
    (hs : s < 32 ^ (8 - groups.length)) (hlen : groups.length ≤ 8) :
    run s groups = number s groups := by
  induction groups generalizing s with
  | nil => rfl
  | cons g groups ih =>
    have hgl : g.toNat < 32 := hg.head
    simp only [List.length_cons] at hs hlen
    have hs35 : s < 0x800000000 := by
      have : 32 ^ (8 - (groups.length + 1)) ≤ 32 ^ 7 := Nat.pow_le_pow_right (by decide) (by omega)
      omega
    have hnext : s * 32 + g.toNat < 32 ^ (8 - groups.length) := by
      have hexp : 8 - groups.length = (8 - (groups.length + 1)) + 1 := by omega
      rw [hexp, Nat.pow_succ]
      omega
    show run (step s g.toNat) groups = number (s * 32 + g.toNat) groups
    rw [step_of_lt hs35 hgl]
    exact ih hg.tail hnext (by omega)

/-- **Up to eight groups behind the zero state are the remainder.** -/
theorem run_zero_eq_number {groups : Bytes} (hg : Fits 5 groups) (hlen : groups.length ≤ 8) :
    run 0 groups = number 0 groups :=
  run_eq_number hg (Nat.pow_pos (by decide)) hlen

/-- Up to eight groups behind a state add themselves to what as many zeros leave there. -/
theorem run_eq_xor_number (s : Nat) {groups : Bytes} (hg : Fits 5 groups)
    (hlen : groups.length ≤ 8) :
    run s groups = run s (List.replicate groups.length 0) ^^^ number 0 groups := by
  have hzip : List.zipWith (· ^^^ ·) (List.replicate groups.length (0 : UInt8)) groups =
      groups := by
    apply List.ext_getElem
    · simp
    · intro i h₁ h₂
      rw [List.getElem_zipWith, List.getElem_replicate, UInt8.zero_xor]
  have h := run_xor s 0 (List.replicate groups.length 0) groups (by simp)
  rw [hzip, Nat.xor_zero] at h
  rw [h, run_zero_eq_number hg hlen]

theorem polymod_append (v : Bytes) {groups : Bytes} (hg : Fits 5 groups)
    (hlen : groups.length = 8) :
    polymod (v ++ groups) = polymod (v ++ List.replicate 8 0) ^^^ number 0 groups := by
  simp only [polymod, run_append]
  rw [run_eq_xor_number _ hg (Nat.le_of_eq hlen), hlen]
  ac_rfl

/-! ## The groups of a remainder -/

theorem length_groupsOf (r : Nat) : (groupsOf r).length = 8 := by
  simp [groupsOf]

theorem fits_groupsOf (r : Nat) : Fits 5 (groupsOf r) := by
  intro g hg
  obtain ⟨i, -, rfl⟩ := List.mem_map.mp hg
  have h : (UInt8.ofNat ((r >>> (5 * (7 - i))) % 32)).toNat = (r >>> (5 * (7 - i))) % 32 :=
    @toNat_ofNat_mod 5 (by decide) _
  rw [h]
  exact Nat.mod_lt _ (by decide)

theorem shiftRight_group (r k : Nat) :
    (r >>> (5 * (k + 1))) * 32 + (UInt8.ofNat ((r >>> (5 * k)) % 32)).toNat = r >>> (5 * k) := by
  have hshift : r >>> (5 * (k + 1)) = (r >>> (5 * k)) / 32 := by
    rw [Nat.mul_succ, Nat.shiftRight_add, Nat.shiftRight_eq_div_pow (r >>> (5 * k)) 5]
  rw [hshift, UInt8.toNat_ofNat']
  omega

/-- The groups of a remainder write it. -/
theorem number_groupsOf {r : Nat} (hr : r < stateBound) : number 0 (groupsOf r) = r := by
  have htop : r >>> (5 * 8) = 0 := by
    rw [Nat.shiftRight_eq_div_pow]
    exact Nat.div_eq_of_lt hr
  have hstart : number 0 (groupsOf r) = number (r >>> (5 * 8)) (groupsOf r) := by rw [htop]
  rw [hstart]
  -- Eight times `shiftRight_group`, from the highest group down.
  show (((((((((r >>> (5 * 8)) * 32 + _) * 32 + _) * 32 + _) * 32 + _) * 32 + _) * 32 + _) * 32 +
    _) * 32 + _) = _
  rw [shiftRight_group r 7, shiftRight_group r 6, shiftRight_group r 5, shiftRight_group r 4,
    shiftRight_group r 3, shiftRight_group r 2, shiftRight_group r 1, shiftRight_group r 0]
  rfl

/-- As many groups that write one number are the same, behind the same number. -/
theorem eq_of_number_eq {s t : Nat} : ∀ {a b : Bytes}, Fits 5 a → Fits 5 b →
    a.length = b.length → number s a = number t b → s = t ∧ a = b := by
  intro a
  induction a generalizing s t with
  | nil =>
    intro b _ _ hlen h
    cases b with
    | nil => exact ⟨h, rfl⟩
    | cons y b => simp at hlen
  | cons x a ih =>
    intro b ha hb hlen h
    cases b with
    | nil => simp at hlen
    | cons y b =>
      have hx : x.toNat < 32 := ha.head
      have hy : y.toNat < 32 := hb.head
      obtain ⟨hst, hab⟩ := ih (s := s * 32 + x.toNat) (t := t * 32 + y.toNat) ha.tail hb.tail
        (by simpa using hlen) h
      -- Both groups are below 32, so the sums tell them from what stands in front.
      have hxy : x = y := UInt8.toNat_inj.1 (by omega)
      exact ⟨by omega, by rw [hxy, hab]⟩

/-! ## Completion -/

theorem length_completion (v : Bytes) : (completion v).length = 8 :=
  length_groupsOf _

theorem fits_completion (v : Bytes) : Fits 5 (completion v) :=
  fits_groupsOf _

/-- **The completion of a row makes its remainder zero, and no other eight groups do.** -/
theorem polymod_append_eq_zero_iff (v : Bytes) {groups : Bytes} (hg : Fits 5 groups)
    (hlen : groups.length = 8) : polymod (v ++ groups) = 0 ↔ groups = completion v := by
  have hnum : number 0 (completion v) = polymod (v ++ List.replicate 8 0) :=
    number_groupsOf (polymod_lt _)
  rw [polymod_append v hg hlen, Nat.xor_eq_zero_iff]
  constructor
  · intro h
    exact (eq_of_number_eq hg (fits_completion v) (by rw [hlen, length_completion])
      (by rw [hnum, h])).2
  · intro h
    rw [h, hnum]

end CashWallet.Checksum
