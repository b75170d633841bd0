import CashWallet.Bytes.Digits
import CashWallet.Transaction.Basic

/-!
# `CashWallet/Proofs/Wire/Shortest.lean` — what is read is written no longer than it was

A reader takes some bytes off the front and yields a value. Writing the value again need not give
the same bytes, for counts and lengths are read in any of their forms; but **it gives the same bytes
or fewer** (`IsFormOf`). This says more than it seems to: bytes that are as many as the written form
are the written form. Here it is shown of a single number (`takesForm_varInt`), the only field that
has more than one form.

Each lemma is about a read that succeeded. `bind_eq_ok` takes such a read apart into its steps, and
a field of a fixed width has been read from the bytes that are written for it and no others, which
is one lemma for each width. So whatever is read by a `do` can be taken apart by them, field by
field, until only the numbers of a width of their own are left.

For these the marker decides. A number behind it is read from two, four or eight bytes, and is
written in as many or in fewer (`IsMarked`): behind each marker stand the numbers that a shorter
form does not hold, and those that it would hold are written in it.
-/

set_option autoImplicit false

namespace CashWallet

/-! ## Forms -/

/-- The second string is the first, or longer. -/
def IsFormOf (written taken : Bytes) : Prop :=
  taken = written ∨ written.length < taken.length

namespace IsFormOf

theorem refl (written : Bytes) : IsFormOf written written :=
  .inl rfl

/-- Two strings in a row are no fewer bytes than the written ones, and as many only if both are
these. -/
theorem append {w x v y : Bytes} (h : IsFormOf w x) (h' : IsFormOf v y) :
    IsFormOf (w ++ v) (x ++ y) := by
  obtain rfl | h := h
  · obtain rfl | h' := h'
    · exact .inl rfl
    · exact .inr (by simp only [List.length_append]; omega)
  · refine .inr ?_
    obtain rfl | h' := h'
    · simp only [List.length_append]
      omega
    · simp only [List.length_append]
      omega

end IsFormOf

namespace Reader

variable {ε α β : Type}

/-- A successful read has taken a form of what is written for its value. -/
def TakesForm (r : Reader ε α) (enc : α → Bytes) : Prop :=
  ∀ {b rest : Bytes} {a : α}, r b = (.ok a, rest) → ∃ x, b = x ++ rest ∧ IsFormOf (enc a) x

/-! ## Taking a successful read apart -/

/-- **A read in two steps that succeeds has succeeded in both.** -/
theorem bind_eq_ok {r : Reader ε α} {f : α → Reader ε β} {b rest : Bytes} {c : β}
    (h : (r >>= f) b = (.ok c, rest)) : ∃ a mid, r b = (.ok a, mid) ∧ f a mid = (.ok c, rest) := by
  rw [bind_apply] at h
  cases hr : r b with
  | mk o mid =>
    rw [hr] at h
    cases o with
    | ok a => exact ⟨a, mid, rfl, h⟩
    | error e => cases h

theorem bind_eq_error {r : Reader ε α} {f : α → Reader ε β} {b rest : Bytes} {e : ε}
    (h : (r >>= f) b = (.error e, rest)) :
    r b = (.error e, rest) ∨ ∃ a mid, r b = (.ok a, mid) ∧ f a mid = (.error e, rest) := by
  rw [bind_apply] at h
  cases hr : r b with
  | mk o mid =>
    rw [hr] at h
    cases o with
    | ok a => exact .inr ⟨a, mid, rfl, h⟩
    | error e' =>
      cases h
      exact .inl rfl

theorem bind_pure_eq_ok {r : Reader ε α} {g : α → β} {b rest : Bytes} {c : β}
    (h : (r >>= fun a => pure (g a)) b = (.ok c, rest)) : ∃ a, r b = (.ok a, rest) ∧ c = g a := by
  obtain ⟨a, mid, hr, hg⟩ := bind_eq_ok h
  cases hg
  exact ⟨a, hr, rfl⟩

theorem fields_eq_ok {r : Reader ReadError α} {b rest : Bytes} {a : α}
    (h : r.fields b = (.ok a, rest)) : r b = (.ok a, rest) := by
  simp only [fields, mapError] at h
  cases hr : r b with
  | mk o mid =>
    rw [hr] at h
    cases o with
    | ok a' =>
      cases h
      rfl
    | error e => cases h

/-! ## Fixed widths: only one form -/

theorem take_eq_ok {n : Nat} {b x rest : Bytes} (h : take n b = (.ok x, rest)) :
    b = x ++ rest ∧ x.length = n := by
  by_cases hn : n ≤ b.length
  · rw [take_of_le hn] at h
    cases h
    exact ⟨(List.take_append_drop n b).symm, List.length_take_of_le hn⟩
  · rw [take_of_lt (Nat.lt_of_not_le hn)] at h
    cases h

theorem natLE_eq_ok {width n : Nat} {b rest : Bytes} (h : natLE width b = (.ok n, rest)) :
    b = Bytes.ofNatLE width n ++ rest ∧ n < 256 ^ width := by
  obtain ⟨x, htake, rfl⟩ := bind_pure_eq_ok h
  obtain ⟨rfl, rfl⟩ := take_eq_ok htake
  exact ⟨by rw [Bytes.ofNatLE_toNatLE], Bytes.toNatLE_lt x⟩

theorem byte_eq_ok {v : UInt8} {b rest : Bytes} (h : byte b = (.ok v, rest)) :
    b = v :: rest := by
  obtain ⟨n, hn, rfl⟩ := bind_pure_eq_ok h
  obtain ⟨rfl, -⟩ := natLE_eq_ok hn
  rfl

theorem uint16_eq_ok {v : UInt16} {b rest : Bytes} (h : uint16 b = (.ok v, rest)) :
    b = Bytes.ofNatLE 2 v.toNat ++ rest := by
  obtain ⟨n, hn, rfl⟩ := bind_pure_eq_ok h
  obtain ⟨rfl, hlt⟩ := natLE_eq_ok hn
  rw [UInt16.toNat_ofNat_of_lt' hlt]

theorem uint16BE_eq_ok {v : UInt16} {b rest : Bytes} (h : uint16BE b = (.ok v, rest)) :
    b = Bytes.ofNatBE 2 v.toNat ++ rest := by
  obtain ⟨x, htake, rfl⟩ := bind_pure_eq_ok h
  obtain ⟨rfl, hlen⟩ := take_eq_ok htake
  have hlt := Bytes.toNatBE_lt x
  rw [hlen] at hlt
  rw [UInt16.toNat_ofNat_of_lt' hlt, ← hlen, Bytes.ofNatBE_toNatBE]

theorem uint32_eq_ok {v : UInt32} {b rest : Bytes} (h : uint32 b = (.ok v, rest)) :
    b = Bytes.ofNatLE 4 v.toNat ++ rest := by
  obtain ⟨n, hn, rfl⟩ := bind_pure_eq_ok h
  obtain ⟨rfl, hlt⟩ := natLE_eq_ok hn
  rw [UInt32.toNat_ofNat_of_lt' hlt]

theorem int32_eq_ok {v : Int32} {b rest : Bytes} (h : int32 b = (.ok v, rest)) :
    b = Bytes.ofNatLE 4 v.toUInt32.toNat ++ rest := by
  obtain ⟨u, hu, rfl⟩ := bind_pure_eq_ok h
  rw [UInt32.toUInt32_toInt32]
  exact uint32_eq_ok hu

theorem uint64_eq_ok {v : UInt64} {b rest : Bytes} (h : uint64 b = (.ok v, rest)) :
    b = Bytes.ofNatLE 8 v.toNat ++ rest := by
  obtain ⟨n, hn, rfl⟩ := bind_pure_eq_ok h
  obtain ⟨rfl, hlt⟩ := natLE_eq_ok hn
  rw [UInt64.toNat_ofNat_of_lt' hlt]

theorem int64_eq_ok {v : Int64} {b rest : Bytes} (h : int64 b = (.ok v, rest)) :
    b = Bytes.ofNatLE 8 v.toUInt64.toNat ++ rest := by
  obtain ⟨u, hu, rfl⟩ := bind_pure_eq_ok h
  rw [UInt64.toUInt64_toInt64]
  exact uint64_eq_ok hu

theorem fixed_eq_ok {n : Nat} {b rest : Bytes} {x : FixedBytes n}
    (h : fixed n b = (.ok x, rest)) : b = x.bytes ++ rest := by
  simp only [fixed] at h
  split at h
  · cases h
  · cases h
    exact (List.take_append_drop n b).symm

theorem hash256_eq_ok {b rest : Bytes} {x : Hash256} (h : hash256 b = (.ok x, rest)) :
    b = x.bytes ++ rest := by
  obtain ⟨bytes, hfixed, rfl⟩ := bind_pure_eq_ok h
  exact fixed_eq_ok hfixed

/-! ## Numbers of a width of their own -/

/-- A number behind the marker of a width is the shortest form, or a shorter one would do. -/
def IsMarked (marker : UInt8) (width : Nat) : Prop :=
  ∀ v : UInt64, v.toNat < 256 ^ width →
    VarInt.encode v = marker :: Bytes.ofNatLE width v.toNat ∨ VarInt.width v < width + 1

theorem isMarked_two : IsMarked 0xfd 2 := by
  intro v hv
  unfold VarInt.encode VarInt.width
  by_cases h1 : v.toNat < 0xfd
  · exact .inr (by rw [if_pos h1]; decide)
  · have h2 : v.toNat ≤ 0xffff := by omega
    exact .inl (by rw [if_neg h1, if_pos h2])

theorem isMarked_four : IsMarked 0xfe 4 := by
  intro v hv
  unfold VarInt.encode VarInt.width
  by_cases h1 : v.toNat < 0xfd
  · exact .inr (by rw [if_pos h1]; decide)
  by_cases h2 : v.toNat ≤ 0xffff
  · exact .inr (by rw [if_neg h1, if_pos h2]; decide)
  · have h3 : v.toNat ≤ 0xffffffff := by omega
    exact .inl (by rw [if_neg h1, if_neg h2, if_pos h3])

theorem isMarked_eight : IsMarked 0xff 8 := by
  intro v _
  unfold VarInt.encode VarInt.width
  by_cases h1 : v.toNat < 0xfd
  · exact .inr (by rw [if_pos h1]; decide)
  by_cases h2 : v.toNat ≤ 0xffff
  · exact .inr (by rw [if_neg h1, if_pos h2]; decide)
  by_cases h3 : v.toNat ≤ 0xffffffff
  · exact .inr (by rw [if_neg h1, if_neg h2, if_pos h3]; decide)
  · exact .inl (by rw [if_neg h1, if_neg h2, if_neg h3])

/-- Behind a marker a number is taken in one of its forms. -/
theorem takesForm_marked {marker : UInt8} {width : Nat} {v : UInt64} {b rest : Bytes}
    (hmarked : IsMarked marker width) (hwidth : 256 ^ width ≤ UInt64.size)
    (h : (natLE width >>= fun n => pure (UInt64.ofNat n)) b = (.ok v, rest)) :
    ∃ x, marker :: b = x ++ rest ∧ IsFormOf (VarInt.encode v) x := by
  obtain ⟨n, hn, rfl⟩ := bind_pure_eq_ok h
  obtain ⟨rfl, hlt⟩ := natLE_eq_ok hn
  have hv : (UInt64.ofNat n).toNat = n := UInt64.toNat_ofNat_of_lt' (Nat.lt_of_lt_of_le hlt hwidth)
  refine ⟨marker :: Bytes.ofNatLE width n, rfl, ?_⟩
  -- Either the marker is the one that is written too, or a shorter form was passed over.
  obtain hform | hform := hmarked (UInt64.ofNat n) (by rw [hv]; exact hlt)
  · rw [hv] at hform
    exact .inl hform.symm
  · refine .inr ?_
    rw [VarInt.length_encode, List.length_cons, Bytes.length_ofNatLE]
    exact hform

/-- **A number is taken in one of its forms**, none of which is shorter than the one written. -/
theorem takesForm_varInt : TakesForm varInt VarInt.encode := by
  intro b rest v h
  obtain ⟨first, mid, hfirst, hread⟩ := bind_eq_ok h
  obtain ⟨hb, hlt⟩ := natLE_eq_ok hfirst
  replace hb : b = UInt8.ofNat first :: mid := hb
  rw [hb]
  by_cases h1 : first < 0xfd
  · -- Below the markers the byte is the number, which has no other form of one byte.
    rw [if_pos h1] at hread
    cases hread
    have hv : (UInt64.ofNat first).toNat = first := UInt64.toNat_ofNat_of_lt' (by
      show first < 18446744073709551616
      omega)
    refine ⟨[UInt8.ofNat first], rfl, .inl ?_⟩
    rw [VarInt.encode, hv, if_pos h1]
    rfl
  rw [if_neg h1] at hread
  by_cases h2 : first = 0xfd
  · rw [if_pos h2] at hread
    rw [h2]
    exact takesForm_marked isMarked_two (by decide) hread
  rw [if_neg h2] at hread
  by_cases h3 : first = 0xfe
  · rw [if_pos h3] at hread
    rw [h3]
    exact takesForm_marked isMarked_four (by decide) hread
  · rw [if_neg h3] at hread
    have h4 : first = 0xff := by omega
    rw [h4]
    exact takesForm_marked isMarked_eight (by decide) hread

/-! ## Rows of elements -/

/-- What is known of every element that can be read is known of all elements of a row. -/
theorem forall_of_times {r : Reader ε α} {P : α → Prop}
    (hr : ∀ {b rest : Bytes} {a : α}, r b = (.ok a, rest) → P a) :
    ∀ {n : Nat} {b rest : Bytes} {as : List α}, r.times n b = (.ok as, rest) → ∀ a ∈ as, P a := by
  intro n
  induction n with
  | zero =>
    intro b rest as h
    cases h
    exact fun _ ha => absurd ha List.not_mem_nil
  | succ n ih =>
    intro b rest as h
    obtain ⟨a, mid, ha, hmore⟩ := bind_eq_ok h
    obtain ⟨row, hrow, rfl⟩ := bind_pure_eq_ok hmore
    exact List.forall_mem_cons.mpr ⟨hr ha, ih hrow⟩

end Reader

end CashWallet
