import CashWallet.Proofs.Address.Codec

/-!
# `CashWallet/Proofs/Address/Completion.lean` — one checksum, and no other

Eight groups of five bits are a number below 2 ^ 40, and every such number is written by one row of
eight groups (`groupsOf_number`, `number_groupsOf`). The remainder of a row is such a number as
well, whatever bytes the row has. **Appending eight groups adds their number to what eight zeros
leave**, and adding is exclusive or, so one choice of the eight makes the remainder vanish and no
other does (`completed_once`). That choice is what stands at the end of an address text.

The row may have bytes of more than five bits: the checksum never looks whether they fit, and the
bound on the remainder does not depend on it. Only the eight groups that are appended have to be
groups (`IsChecksum`).
-/

set_option autoImplicit false

namespace CashWallet.Checksum

open Regroup

/-- Eight groups of five bits. -/
structure IsChecksum (x : Bytes) : Prop where
  length_eq : x.length = 8
  fits : Fits 5 x

theorem isChecksum_completion (v : Bytes) : IsChecksum (completion v) :=
  ⟨length_completion v, fits_completion v⟩

/-! ## The number of a checksum -/

/-- Each group that is appended makes the bound of the number 32 times what it was. -/
theorem number_lt {groups : Bytes} (hg : Fits 5 groups) :
    ∀ {s bound : Nat}, s < bound → number s groups < bound * 32 ^ groups.length := by
  induction groups with
  | nil =>
    intro s bound hs
    rw [List.length_nil, Nat.pow_zero, Nat.mul_one]
    exact hs
  | cons g groups ih =>
    intro s bound hs
    have hgl : g.toNat < 32 := hg.head
    have hnext : s * 32 + g.toNat < bound * 32 := by omega
    have hrest := ih hg.tail hnext
    rw [List.length_cons, Nat.pow_succ, Nat.mul_comm (32 ^ groups.length), ← Nat.mul_assoc]
    exact hrest

theorem IsChecksum.number_lt {x : Bytes} (h : IsChecksum x) : number 0 x < stateBound := by
  have hlt := Checksum.number_lt h.fits Nat.zero_lt_one
  rw [h.length_eq] at hlt
  exact hlt

/-- **A checksum is the groups of its number.** -/
theorem groupsOf_number {x : Bytes} (h : IsChecksum x) : groupsOf (number 0 x) = x := by
  have hnum : number 0 (groupsOf (number 0 x)) = number 0 x := number_groupsOf h.number_lt
  have hlen : (groupsOf (number 0 x)).length = x.length := by
    rw [length_groupsOf, h.length_eq]
  exact (eq_of_number_eq (fits_groupsOf _) h.fits hlen hnum).2

/-! ## Completion -/

/-- **Exactly one checksum completes a row.** Behind any row, eight groups change the remainder that
eight zeros leave by their own number; the remainder stays below 2 ^ 40; and it is zero for the
groups with which the text of an address ends, and for no others. -/
theorem completed_once (v : Bytes) :
    polymod v < 2 ^ 40 ∧
      (∀ x, IsChecksum x → number 0 x < 2 ^ 40 ∧ groupsOf (number 0 x) = x ∧
        polymod (v ++ x) = polymod (v ++ List.replicate 8 0) ^^^ number 0 x) ∧
      (IsChecksum (completion v) ∧
        ∀ x, IsChecksum x → (polymod (v ++ x) = 0 ↔ x = completion v)) ∧
      ∀ a : CashAddress, CashAddress.checksumInput a.label a.payloadGroups = v →
        a.encode.toList =
          a.label.toList ++ ':' :: (a.payloadGroups ++ completion v).map CashAddress.letter := by
  refine ⟨polymod_lt v, ?_, ⟨isChecksum_completion v, ?_⟩, ?_⟩
  · intro x hx
    exact ⟨hx.number_lt, groupsOf_number hx, polymod_append v hx.fits hx.length_eq⟩
  · intro x hx
    exact polymod_append_eq_zero_iff v hx.fits hx.length_eq
  · rintro a rfl
    exact CashAddress.toList_encode a

/-- A row with bytes of more than five bits, and eight groups that do not complete it. -/
def sampleRow : Bytes :=
  [0x62, 0xff, 0x00, 0x1f, 0x80]

def sampleGroups : Bytes :=
  [1, 31, 0, 16, 7, 25, 2, 30]

/-- What the row leaves is changed by the number of the groups, and is not zero. -/
theorem completed_once_sampleRow :
    IsChecksum sampleGroups ∧
      polymod (sampleRow ++ sampleGroups) =
        polymod (sampleRow ++ List.replicate 8 0) ^^^ number 0 sampleGroups ∧
      polymod (sampleRow ++ sampleGroups) ≠ 0 ∧
      polymod (sampleRow ++ completion sampleRow) = 0 := by
  have hfits : ∀ g ∈ sampleGroups, g.toNat < 2 ^ 5 := by decide +kernel
  have hgroups : IsChecksum sampleGroups := ⟨rfl, hfits⟩
  obtain ⟨-, hadds, ⟨hcompletion, hzero⟩, -⟩ := completed_once sampleRow
  exact ⟨hgroups, (hadds _ hgroups).2.2, by decide, (hzero _ hcompletion).mpr rfl⟩

end CashWallet.Checksum
