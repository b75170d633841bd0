import CashWallet.Proofs.Wire.Form

/-!
# `CashWallet/Proofs/Wire/Prefix.lean` — a number tells where it ends

The first byte of a number tells how many bytes the number has (`VarInt.announced`), and reading
asks for nothing else: **it fails exactly when the string ends before that many bytes are there**
(`VarInt.measure_eq_error_iff`). So no form begins another one, and a row of numbers needs nothing
between them.

A value has one form that is shortest, the written one, and may be read from longer ones, padded
with zeros at the high end. Which of them was read is seen from the number of bytes alone
(`VarInt.prefixCode`).

The reader takes the first byte and decides by it: a number by itself, or a number of two, four or
eight bytes behind a marker. Both directions of the condition go through this once, the one way with
too few bytes behind the marker and the other way with enough. Nothing is said of the value here:
that longer forms are read as the same value is what `VarInt.IsForm` means.
-/

set_option autoImplicit false

namespace CashWallet

open Reader

namespace VarInt

/-- How many bytes a form has that begins with the given one. -/
def announced (first : UInt8) : Nat :=
  if first.toNat < 0xfd then 1
  else if first.toNat = 0xfd then 3
  else if first.toNat = 0xfe then 5
  else 9

/-- The string ends before the number does with which it begins. -/
def IsCutShort : Bytes → Prop
  | [] => True
  | first :: rest => rest.length + 1 < announced first

/-! ## What the first byte decides -/

theorem natLE_one_cons (first : UInt8) (rest : Bytes) :
    natLE 1 (first :: rest) = (.ok first.toNat, rest) :=
  rfl

theorem announced_of_lt {first : UInt8} (h : first.toNat < 0xfd) : announced first = 1 :=
  if_pos h

theorem varInt_of_lt {first : UInt8} (rest : Bytes) (h : first.toNat < 0xfd) :
    Reader.varInt (first :: rest) = (.ok (UInt64.ofNat first.toNat), rest) := by
  rw [Reader.varInt, bind_of_ok (natLE_one_cons first rest), if_pos h]
  rfl

/-- Behind a marker there is a number of the width that the marker announces. -/
theorem varInt_of_marker {first : UInt8} (rest : Bytes) (h : ¬ first.toNat < 0xfd) :
    ∃ width, announced first = width + 1 ∧
      Reader.varInt (first :: rest) = (natLE width >>= fun n => pure (UInt64.ofNat n)) rest := by
  rw [Reader.varInt, bind_of_ok (natLE_one_cons first rest), if_neg h, announced, if_neg h]
  by_cases h2 : first.toNat = 0xfd
  · rw [if_pos h2, if_pos h2]
    exact ⟨2, rfl, rfl⟩
  rw [if_neg h2, if_neg h2]
  by_cases h3 : first.toNat = 0xfe
  · rw [if_pos h3, if_pos h3]
    exact ⟨4, rfl, rfl⟩
  · rw [if_neg h3, if_neg h3]
    exact ⟨8, rfl, rfl⟩

/-! ## Where a number ends -/

theorem natLE_of_lt {width : Nat} {b : Bytes} (h : b.length < width) :
    natLE width b = (.error (.endOfData width b.length), b) :=
  bind_of_error (take_of_lt h)

theorem natLE_of_le {width : Nat} {b : Bytes} (h : width ≤ b.length) :
    natLE width b = (.ok (Bytes.toNatLE (b.take width)), b.drop width) :=
  bind_of_ok (take_of_le h)

theorem exists_error_of_isCutShort {b : Bytes} (h : IsCutShort b) :
    ∃ e, Reader.varInt.measure b = .error e := by
  cases b with
  | nil => exact ⟨.endOfData 1 0, rfl⟩
  | cons first rest =>
    have hshort : rest.length + 1 < announced first := h
    by_cases hlt : first.toNat < 0xfd
    · rw [announced_of_lt hlt] at hshort
      omega
    · obtain ⟨width, hwidth, hread⟩ := varInt_of_marker rest hlt
      have hnumber := natLE_of_lt (show rest.length < width by omega)
      rw [Reader.measure, hread, bind_of_error hnumber]
      exact ⟨_, rfl⟩

/-- A number that is there in full has as many bytes as its first one announces. -/
theorem exists_ok_of_not_isCutShort {b : Bytes} (h : ¬ IsCutShort b) :
    ∃ first v, b.head? = some first ∧ Reader.varInt.measure b = .ok (v, announced first) := by
  cases b with
  | nil => exact absurd trivial h
  | cons first rest =>
    have hroom : ¬ rest.length + 1 < announced first := h
    by_cases hlt : first.toNat < 0xfd
    · refine ⟨first, UInt64.ofNat first.toNat, rfl, measure_eq_ok_iff.mpr ?_⟩
      refine ⟨rest, varInt_of_lt rest hlt, ?_⟩
      rw [announced_of_lt hlt, List.length_cons, Nat.add_sub_cancel_left]
    · obtain ⟨width, hwidth, hread⟩ := varInt_of_marker rest hlt
      have hnumber := natLE_of_le (show width ≤ rest.length by omega)
      refine ⟨first, UInt64.ofNat (Bytes.toNatLE (rest.take width)), rfl, ?_⟩
      refine measure_eq_ok_iff.mpr ⟨rest.drop width, ?_, ?_⟩
      · rw [hread, bind_of_ok hnumber, pure_apply]
      · rw [List.length_cons, List.length_drop]
        omega

/-- **Reading fails exactly when the string is cut short.** -/
theorem measure_eq_error_iff {b : Bytes} :
    (∃ e, Reader.varInt.measure b = .error e) ↔ IsCutShort b := by
  refine ⟨?_, exists_error_of_isCutShort⟩
  rintro ⟨e, he⟩
  by_contra hroom
  obtain ⟨first, v, -, hok⟩ := exists_ok_of_not_isCutShort hroom
  rw [he] at hok
  cases hok

theorem isCutShort_iff {b : Bytes} :
    IsCutShort b ↔ b = [] ∨ ∃ first rest, b = first :: rest ∧ b.length < announced first := by
  cases b with
  | nil => exact iff_of_true trivial (.inl rfl)
  | cons first rest =>
    constructor
    · intro h
      exact .inr ⟨first, rest, rfl, h⟩
    · rintro (h | ⟨first', rest', h, hshort⟩)
      · cases h
      · cases h
        exact hshort

/-! ## Which form was read -/

theorem form_of_measure {b : Bytes} {v : UInt64} {used : Nat}
    (h : Reader.varInt.measure b = .ok (v, used)) :
    IsForm v.toNat (b.take used) ∧ (b.take used).length = used := by
  obtain ⟨rest, hread, rfl⟩ := measure_eq_ok_iff.mp h
  obtain ⟨x, hform, rfl⟩ := varInt_eq_ok hread
  rw [List.length_append, Nat.add_sub_cancel, List.take_left]
  exact ⟨hform, rfl⟩

/-- A form has as many bytes as the written one only if it is the written one. -/
theorem IsForm.length_eq_iff {v : UInt64} {x : Bytes} (h : IsForm v.toNat x) :
    x.length = width v ↔ x = encode v := by
  rw [← length_encode]
  constructor
  · intro hlen
    have hform := h.isFormOf
    rw [ofCount, UInt64.ofNat_toNat] at hform
    obtain hsame | hlonger := hform
    · exact hsame
    · omega
  · rintro rfl
    rfl

theorem IsForm.width_le {v : UInt64} {x : Bytes} (h : IsForm v.toNat x) : width v ≤ x.length := by
  have hle := h.isFormOf.length_le
  rwa [ofCount, UInt64.ofNat_toNat, length_encode] at hle

/-- **Numbers are a prefix code with one shortest form for each value**: what is written is read
back with its width, whatever stands behind it; what is read takes no fewer bytes than are written,
and as many only in the written form; and nothing is read exactly when there is nothing, or less
than the first byte announces. -/
theorem prefixCode (b : Bytes) :
    (∀ v s, b = encode v ++ s → Reader.varInt.measure b = .ok (v, width v)) ∧
      (∀ v used, Reader.varInt.measure b = .ok (v, used) →
        width v ≤ used ∧ (used = width v ↔ b.take used = encode v)) ∧
      ((∃ e, Reader.varInt.measure b = .error e) ↔
        b = [] ∨ ∃ first rest, b = first :: rest ∧ b.length < announced first) := by
  refine ⟨?_, ?_, ?_⟩
  · rintro v s rfl
    rw [← length_encode]
    exact (Reads.varInt v).measure_append s
  · intro v used h
    obtain ⟨hform, hlen⟩ := form_of_measure h
    have hle := hform.width_le
    have hiff := hform.length_eq_iff
    rw [hlen] at hle hiff
    exact ⟨hle, hiff⟩
  · exact measure_eq_error_iff.trans isCutShort_iff

/-- One, in the form of three bytes, in front of another byte. -/
def paddedOne : Bytes :=
  [0xfd, 0x01, 0x00, 0x2a]

theorem prefixCode_paddedOne :
    Reader.varInt.measure (encode 300 ++ paddedOne) = .ok (300, width 300) ∧
      Reader.varInt.measure paddedOne = .ok (1, 3) ∧
      width 1 ≤ 3 ∧ (3 = width 1 ↔ paddedOne.take 3 = encode 1) := by
  have hread : Reader.varInt.measure paddedOne = .ok (1, 3) := by decide
  exact ⟨(prefixCode (encode 300 ++ paddedOne)).1 300 paddedOne rfl, hread,
    (prefixCode paddedOne).2.1 1 3 hread⟩

end VarInt

end CashWallet
