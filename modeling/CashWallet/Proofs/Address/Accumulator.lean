import CashWallet.Proofs.Address.Regroup

/-!
# `CashWallet/Proofs/Address/Accumulator.lean` — regrouping in a word of 32 bits

Regrouping moves the bits that are pending to the left to make room for a group, and once more to
fill up the last one. A word of 32 bits loses what is moved out of it at the top. **Nothing ever
is**: less than a group is pending, so that what is moved has at most as many bits as the two widths
together (`shiftsBelow`). That holds at every step of every row, also of one that is refused further
on.

The numbers of the model have no width, so a bound on them is all that there is to say about a word:
a program that keeps them in 32 bits computes the same ones. The bound is a predicate that follows
the recursion of the loop (`ShiftsBelow`), with one conjunct for each shift that is made. Of a row
that is refused only the groups in front of the one that is too wide are looked at (`accepted`),
because the loop does not come further.

With it, the two directions are inverse to each other as they stand (`regroup_invertible`): a row of
fitting groups has one filled form, and reading that form back yields the row. Both facts are in
`CashWallet/Proofs/Address/Regroup.lean` in terms of the relation between the two rows; here they
are put together.
-/

set_option autoImplicit false

namespace CashWallet.Regroup

/-! ## What a shift makes -/

/-- A number that is moved, and a smaller one in the room that it leaves. -/
theorem shiftLeft_add_lt {a g m n : Nat} (ha : a < 2 ^ m) (hg : g < 2 ^ n) :
    a <<< n + g < 2 ^ (m + n) := by
  calc a <<< n + g
      = 2 ^ n * a + g := by rw [Nat.shiftLeft_eq, Nat.mul_comm]
    _ < 2 ^ n * (a + 1) := by rw [Nat.mul_succ]; exact Nat.add_lt_add_left hg _
    _ ≤ 2 ^ n * 2 ^ m := Nat.mul_le_mul_left _ ha
    _ = 2 ^ (m + n) := by rw [← Nat.pow_add, Nat.add_comm]

theorem IsRest.push_lt {source target : Nat} {p : Pending} (hp : IsRest target p) {g : UInt8}
    (hg : g.toNat < 2 ^ source) : (push source p g).value < 2 ^ (source + target) := by
  have hbits : p.bits + source ≤ source + target := by
    have := hp.bits_lt
    omega
  exact Nat.lt_of_lt_of_le (shiftLeft_add_lt hp.value_lt hg)
    (Nat.pow_le_pow_right (by decide) hbits)

/-- Filling up makes no more than a group. -/
theorem IsRest.fill_lt {target : Nat} {p : Pending} (hp : IsRest target p) :
    p.value <<< (target - p.bits) < 2 ^ target := by
  have hwidth : p.bits + (target - p.bits) = target := by
    have := hp.bits_lt
    omega
  have hlt := shiftLeft_add_lt hp.value_lt (Nat.two_pow_pos (target - p.bits))
  rwa [Nat.add_zero, hwidth] at hlt

/-! ## The whole row -/

/-- Every number that is made by a shift stays below a limit: at each group of a row that follows
some bits, and where the bits left over are filled up. -/
def ShiftsBelow (limit source target : Nat) : Pending → Bytes → Prop
  | p, [] => p.value <<< (target - p.bits) < limit
  | p, group :: rest =>
    (push source p group).value < limit ∧
      ShiftsBelow limit source target (leftover target (push source p group)) rest

/-- **A word as wide as both groups together loses nothing.** -/
theorem shiftsBelow {source target width : Nat} (ht : 0 < target)
    (hwidth : source + target ≤ width) {groups : Bytes} :
    ∀ {p : Pending}, Fits source groups → IsRest target p →
      ShiftsBelow (2 ^ width) source target p groups := by
  induction groups with
  | nil =>
    intro p _ hp
    exact Nat.lt_of_lt_of_le hp.fill_lt (Nat.pow_le_pow_right (by decide) (by omega))
  | cons g groups ih =>
    intro p hg hp
    have hpush : (push source p g).value < 2 ^ width :=
      Nat.lt_of_lt_of_le (hp.push_lt hg.head) (Nat.pow_le_pow_right (by decide) hwidth)
    -- What cutting leaves is less than a group again, whatever was pending.
    exact ⟨hpush, ih hg.tail (isRest_leftover ht _)⟩

/-- The groups of a row up to the first that is too wide, at which the row is refused. -/
def accepted (source : Nat) (groups : Bytes) : Bytes :=
  groups.takeWhile fun v => v.toNat >>> source == 0

theorem fits_accepted (source : Nat) (groups : Bytes) : Fits source (accepted source groups) := by
  intro g hg
  have hshift : g.toNat >>> source = 0 := by
    simpa using List.mem_takeWhile_imp hg
  rw [Nat.shiftRight_eq_div_pow, Nat.div_eq_zero_iff] at hshift
  exact hshift.resolve_left (Nat.two_pow_pos source).ne'

/-! ## Both directions -/

/-- **Regrouping can be undone.** A row whose groups fit is filled up to groups of the smaller width
that have its bits and fewer zeros than a group behind them; a row is the filled form of another
exactly when it is read back as that one; and on the way no bit leaves a word of 32 bits, in either
direction and whether or not the row is refused in the end. -/
theorem regroup_invertible {source target : Nat} (ht : 1 ≤ target) (hts : target ≤ source)
    (hs8 : source ≤ 8) :
    (∀ d, Fits source d → ∃ e k, filled source target d = .ok e ∧ Fits target e ∧ k < target ∧
        rowBits target e = rowBits source d ++ List.replicate k false) ∧
      (∀ d e, filled source target d = .ok e ↔ exact target source e = .ok d) ∧
      ∀ row, ShiftsBelow (2 ^ 32) source target ⟨0, 0⟩ (accepted source row) ∧
        ShiftsBelow (2 ^ 32) target source ⟨0, 0⟩ (accepted target row) := by
  have ht8 : target ≤ 8 := Nat.le_trans hts hs8
  have hs : 0 < source := Nat.lt_of_lt_of_le ht hts
  refine ⟨?_, ?_, ?_⟩
  · intro d hd
    have hfilled := isFilled_padded ht ht8 hd
    obtain ⟨k, hk, hbits⟩ := hfilled.filling
    exact ⟨_, k, (filled_eq_ok_iff ht ht8).mpr hfilled, hfilled.fits_target, hk, hbits⟩
  · intro d e
    exact (filled_eq_ok_iff ht ht8).trans (exact_eq_ok_iff ht hts hs8).symm
  · intro row
    exact ⟨shiftsBelow ht (by omega) (fits_accepted source row) (isRest_nothing ht),
      shiftsBelow hs (by omega) (fits_accepted target row) (isRest_nothing hs)⟩

/-- Fourteen bits make four groups of three and a fifth that ends in a zero. Of the second row only
the first group is accepted. -/
theorem regroup_invertible_sevenToThree :
    (1 ≤ 3 ∧ 3 ≤ 7 ∧ 7 ≤ 8) ∧ filled 7 3 [0x7f, 0x01] = .ok [7, 7, 4, 0, 2] ∧
      exact 3 7 [7, 7, 4, 0, 2] = .ok [0x7f, 0x01] ∧
      ShiftsBelow (2 ^ 32) 7 3 ⟨0, 0⟩ (accepted 7 [0x7f, 0x80, 0x01]) := by
  obtain ⟨-, hundo, hshifts⟩ := @regroup_invertible 7 3 (by decide) (by decide) (by decide)
  have hfilled : filled 7 3 [0x7f, 0x01] = .ok [7, 7, 4, 0, 2] := by rfl
  exact ⟨by decide, hfilled, (hundo _ _).mp hfilled, (hshifts _).1⟩

end CashWallet.Regroup
