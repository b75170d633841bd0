import CashWallet.Proofs.Wire.Delimited
import Mathlib.Data.List.Forall2

/-!
# `CashWallet/Proofs/Wire/Form.lean` — the forms in which a number may stand

A number of one to nine bytes is read from any of its forms (`VarInt.IsForm`) and written in the one
that none of the others is shorter than (`VarInt.IsShortest`). What is made of fixed fields and of
such numbers is therefore told apart from its written form by its numbers alone: **the taken bytes
are never fewer than the written ones, and they are the same exactly when every number in them
stands in its shortest form**.

`IsFormWhen p written taken` says this of two strings, with the condition on the numbers as `p`. It
is kept by putting strings together, where the conditions are put together by `∧`
(`IsFormWhen.append`), and by rows, where the condition is asked of every element
(`isFormWhen_row`). Bytes that have no choice are the case with nothing to ask (`IsFormWhen.refl`).

A form is said by what reads it, without a list of the forms there are: whatever stands behind it,
the reader of numbers takes it for the number. So nothing here depends on how many forms a number
has or on how they are marked, but for the one fact that none is as short as the written one unless
it is the written one (`VarInt.IsForm.isFormOf`).
-/

set_option autoImplicit false

namespace CashWallet

open Reader

/-! ## The forms of a number -/

namespace VarInt

/-- The bytes are read as the number, whatever stands behind them. -/
def IsForm (n : Nat) (x : Bytes) : Prop :=
  ∃ v : UInt64, v.toNat = n ∧ Reads Reader.varInt x v

/-- No form of the number is shorter. -/
def IsShortest (n : Nat) (x : Bytes) : Prop :=
  ∀ y, IsForm n y → x.length ≤ y.length

theorem isForm_ofCount {n : Nat} (h : n < UInt64.size) : IsForm n (ofCount n) :=
  ⟨UInt64.ofNat n, UInt64.toNat_ofNat_of_lt' h, .ofCount n⟩

namespace IsForm

theorem lt {n : Nat} {x : Bytes} (h : IsForm n x) : n < UInt64.size := by
  obtain ⟨v, rfl, -⟩ := h
  exact v.toNat_lt

theorem isFormOf {n : Nat} {x : Bytes} (h : IsForm n x) : IsFormOf (ofCount n) x := by
  obtain ⟨v, rfl, hreads⟩ := h
  obtain ⟨y, hy, hform⟩ := takesForm_varInt (hreads [])
  rw [List.append_nil, List.append_nil] at hy
  rwa [ofCount, UInt64.ofNat_toNat, hy]

/-- **The written form is the shortest one**, and there is no other as short. -/
theorem isShortest_iff {n : Nat} {x : Bytes} (h : IsForm n x) :
    IsShortest n x ↔ ofCount n = x := by
  constructor
  · intro hshortest
    obtain hsame | hlonger := h.isFormOf
    · exact hsame.symm
    · exact absurd (hshortest _ (isForm_ofCount h.lt)) (Nat.not_le_of_lt hlonger)
  · rintro rfl y hy
    obtain rfl | hlonger := hy.isFormOf
    · exact Nat.le_refl _
    · exact Nat.le_of_lt hlonger

end IsForm

end VarInt

open VarInt

/-! ## Reading a number in one of its forms -/

namespace Reader

theorem varInt_eq_ok {b rest : Bytes} {v : UInt64} (h : varInt b = (.ok v, rest)) :
    ∃ x, IsForm v.toNat x ∧ b = x ++ rest := by
  obtain ⟨x, hb, -, hreads⟩ := Delimits.varInt _ _ _ h
  exact ⟨x, ⟨v, rfl, hreads⟩, hb⟩

/-- **A number that is kept only within a bound** on the bytes behind it stands in one of its forms,
and is within the bound. The two readers below are cases of this: a length may be as large as what
is left, a count of elements as large as the number of the smallest elements that fit into it. -/
theorem guarded_eq_ok {ε : Type} {number : Reader ε UInt64} {bound : Nat → Nat} {e : UInt64 → Nat → ε}
    (hnumber : ∀ {b rest : Bytes} {v : UInt64}, number b = (.ok v, rest) →
      ∃ x, IsForm v.toNat x ∧ b = x ++ rest) {b rest : Bytes} {n : Nat}
    (h : (number >>= fun v => remaining >>= fun available =>
      if bound available < v.toNat then fail (e v available) else pure v.toNat) b = (.ok n, rest)) :
    ∃ x, IsForm n x ∧ b = x ++ rest ∧ n ≤ bound rest.length := by
  obtain ⟨v, mid, hv, hguard⟩ := bind_eq_ok h
  obtain ⟨x, hform, rfl⟩ := hnumber hv
  obtain ⟨available, mid', hleft, hguard⟩ := bind_eq_ok hguard
  cases hleft
  by_cases hroom : bound mid.length < v.toNat
  · rw [if_pos hroom] at hguard
    cases hguard
  · rw [if_neg hroom] at hguard
    cases hguard
    exact ⟨x, hform, rfl, Nat.le_of_not_lt hroom⟩

/-- A length is a number that the bytes behind it can fill. -/
theorem length_eq_ok {b rest : Bytes} {n : Nat} (h : Reader.length b = (.ok n, rest)) :
    ∃ x, IsForm n x ∧ b = x ++ rest ∧ n ≤ rest.length :=
  guarded_eq_ok varInt_eq_ok h

/-- What is read as data has a form of its length in front. -/
theorem varBytes_eq_ok {b rest y : Bytes} (h : varBytes b = (.ok y, rest)) :
    ∃ x, IsForm y.length x ∧ b = x ++ (y ++ rest) := by
  obtain ⟨n, mid, hlength, htake⟩ := bind_eq_ok h
  obtain ⟨x, hform, rfl, -⟩ := length_eq_ok hlength
  obtain ⟨rfl, hsize⟩ := take_eq_ok htake
  rw [hsize]
  exact ⟨x, hform, rfl⟩

theorem elementCount_eq_ok {least n : Nat} {b rest : Bytes}
    (h : elementCount least b = (.ok n, rest)) :
    ∃ x, IsForm n x ∧ b = x ++ rest ∧ n ≤ rest.length / least :=
  guarded_eq_ok (fun hcount => varInt_eq_ok (fields_eq_ok hcount)) h

end Reader

/-! ## Strings that differ in the forms of their numbers -/

theorem IsFormOf.length_le {written taken : Bytes} (h : IsFormOf written taken) :
    written.length ≤ taken.length := by
  obtain rfl | h := h
  · exact Nat.le_refl _
  · exact Nat.le_of_lt h

/-- The second string is the first or longer, and it is the first exactly under the condition. -/
structure IsFormWhen (p : Prop) (written taken : Bytes) : Prop where
  isFormOf : IsFormOf written taken
  eq_iff : written = taken ↔ p

theorem VarInt.IsForm.isFormWhen {n : Nat} {x : Bytes} (h : IsForm n x) :
    IsFormWhen (IsShortest n x) (ofCount n) x :=
  ⟨h.isFormOf, h.isShortest_iff.symm⟩

namespace IsFormWhen

variable {p q : Prop} {w x v y : Bytes}

theorem refl (w : Bytes) : IsFormWhen True w w :=
  ⟨.refl w, iff_of_true rfl trivial⟩

theorem congr (h : IsFormWhen p w x) (hpq : p ↔ q) : IsFormWhen q w x :=
  ⟨h.isFormOf, h.eq_iff.trans hpq⟩

/-- **Two strings in a row** are the written ones when each of them is: neither can make up for what
the other has too much. -/
theorem append (h : IsFormWhen p w x) (h' : IsFormWhen q v y) :
    IsFormWhen (p ∧ q) (w ++ v) (x ++ y) := by
  refine ⟨h.isFormOf.append h'.isFormOf, ?_⟩
  rw [← h.eq_iff, ← h'.eq_iff]
  constructor
  · intro heq
    have hlen := congrArg List.length heq
    have hle := h.isFormOf.length_le
    have hle' := h'.isFormOf.length_le
    rw [List.length_append, List.length_append] at hlen
    exact List.append_inj heq (by omega)
  · rintro ⟨rfl, rfl⟩
    rfl

theorem prepend (a : Bytes) (h : IsFormWhen p w x) : IsFormWhen p (a ++ w) (a ++ x) :=
  ((refl a).append h).congr (iff_of_eq (true_and p))

theorem extend (h : IsFormWhen p w x) (a : Bytes) : IsFormWhen p (w ++ a) (x ++ a) :=
  (h.append (refl a)).congr (iff_of_eq (and_true p))

/-- A part that is there only under a condition is asked about only then. -/
theorem announced {c : Bool} (h : c = true → IsFormWhen p w x) :
    IsFormWhen (c = true → p) (if c then w else []) (if c then x else []) := by
  cases c with
  | true => exact (h rfl).congr ⟨fun hp _ => hp, fun hp => hp rfl⟩
  | false => exact (refl []).congr (iff_of_true trivial fun hc => nomatch hc)

end IsFormWhen

/-! ## Rows -/

section

variable {ε α : Type}

/-- The bytes of a row whose elements are written with the forms given for them. -/
def rowIn (encodeIn : α → Bytes → Bytes) (as : List α) (forms : List Bytes) : Bytes :=
  (List.zipWith encodeIn as forms).flatten

/-- What is read as a row is the row, with each element in some form. -/
theorem times_eq_ok {r : Reader ε α} {encodeIn : α → Bytes → Bytes} {number : α → Nat}
    (hr : ∀ {b rest : Bytes} {a : α}, r b = (.ok a, rest) →
      ∃ x, IsForm (number a) x ∧ b = encodeIn a x ++ rest) :
    ∀ {n : Nat} {b rest : Bytes} {as : List α}, r.times n b = (.ok as, rest) →
      as.length = n ∧ ∃ forms, List.Forall₂ (fun a x => IsForm (number a) x) as forms ∧
        b = rowIn encodeIn as forms ++ rest := by
  intro n
  induction n with
  | zero =>
    intro b rest as h
    cases h
    exact ⟨rfl, [], .nil, rfl⟩
  | succ n ih =>
    intro b rest as h
    obtain ⟨a, mid, ha, hmore⟩ := bind_eq_ok h
    obtain ⟨row, hrow, rfl⟩ := bind_pure_eq_ok hmore
    obtain ⟨x, hx, rfl⟩ := hr ha
    obtain ⟨rfl, forms, hforms, rfl⟩ := ih hrow
    refine ⟨rfl, x :: forms, .cons hx hforms, ?_⟩
    rw [rowIn, rowIn, List.zipWith_cons_cons, List.flatten_cons, List.append_assoc]

/-- Numbers that have forms are numbers that can be written. -/
theorem lt_of_forms {number : α → Nat} {as : List α} {forms : List Bytes}
    (hforms : List.Forall₂ (fun a x => IsForm (number a) x) as forms) :
    ∀ a ∈ as, number a < UInt64.size := by
  have hboth := hforms.imp fun a x hx => And.intro hx.lt hx
  exact ((List.forall₂_and_left ..).mp hboth).1

/-- **A row in some forms is the written one when each of them is the shortest.** -/
theorem isFormWhen_row {encode : α → Bytes} {encodeIn : α → Bytes → Bytes} {number : α → Nat}
    (h : ∀ {a : α} {x : Bytes}, IsForm (number a) x →
      IsFormWhen (IsShortest (number a) x) (encode a) (encodeIn a x)) {as : List α}
    {forms : List Bytes} (hforms : List.Forall₂ (fun a x => IsForm (number a) x) as forms) :
    IsFormWhen (List.Forall₂ (fun a x => IsShortest (number a) x) as forms) (as.flatMap encode)
      (rowIn encodeIn as forms) := by
  induction hforms with
  | nil => exact (IsFormWhen.refl []).congr (iff_of_true trivial .nil)
  | cons hx _ ih =>
    rw [List.flatMap_cons, rowIn, List.zipWith_cons_cons, List.flatten_cons]
    refine ((h hx).append ih).congr ?_
    rw [List.forall₂_cons]

end

end CashWallet
