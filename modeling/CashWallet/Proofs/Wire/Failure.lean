import CashWallet.Proofs.Wire.Prefix

/-!
# `CashWallet/Proofs/Wire/Failure.lean` — why a read fails, and what it leaves then

A read that fails need not leave the string as it was. It takes a marker before it looks for the
digits behind it, and a length before it looks for what the length promises. There are three ways to
fail, and each of them says what was missing, what is reported and what is left:

* fewer bytes than a fixed width, and **nothing is taken** (`TooFew`);
* a number without all of its digits, and its first byte is taken (`VarInt.CutOff`);
* a length that what follows cannot fill, and it is taken (`Unfilled`).

`FailsAs` says that a reader fails in such a way only. **No more than the number in front is ever
taken** (`Unfilled.length_le`), of which the first byte tells how long it is: for this the forms in
`Proofs/Wire/Form.lean` are spelled out byte by byte (`VarInt.Spells`).

Each kind of field has one way to fail, so a reader that is one field and a wrapper around its value
fails as the field does (`FailsAs.bind_pure`). Of two fields in a row this could not be said, for
the second fails behind what the first has taken; here every reader is a single field.
-/

set_option autoImplicit false

namespace CashWallet

open Reader VarInt

/-! ## The bytes of a number -/

namespace VarInt

/-- The first byte of a number is the number itself, or it announces how many digits follow. -/
inductive Spells : Bytes → Nat → Prop
  | small {first : UInt8} (h : first.toNat < 0xfd) : Spells [first] first.toNat
  | marked {first : UInt8} {digits : Bytes} (h : ¬ first.toNat < 0xfd)
      (hlen : digits.length + 1 = announced first) :
      Spells (first :: digits) (Bytes.toNatLE digits)

/-- How many bytes the number takes with which a string begins. -/
def announcedBy : Bytes → Nat
  | [] => 0
  | first :: _ => announced first

theorem announced_le (first : UInt8) : announced first ≤ 9 := by
  unfold announced
  split
  · decide
  split
  · decide
  split <;> decide

/-- Whatever is read as a number spells it. -/
theorem IsForm.spells {n : Nat} {x : Bytes} (h : IsForm n x) : Spells x n := by
  obtain ⟨v, rfl, hreads⟩ := h
  have hread := hreads []
  rw [List.append_nil] at hread
  cases x with
  | nil => cases hread
  | cons first digits =>
    by_cases hlt : first.toNat < 0xfd
    · rw [varInt_of_lt digits hlt] at hread
      cases hread
      have hv : (UInt64.ofNat first.toNat).toNat = first.toNat :=
        UInt64.toNat_ofNat_of_lt' (Nat.lt_trans first.toNat_lt (by decide))
      rw [hv]
      exact .small hlt
    · obtain ⟨width, hwidth, hmarked⟩ := varInt_of_marker digits hlt
      rw [hmarked] at hread
      obtain ⟨n, hn, rfl⟩ := bind_pure_eq_ok hread
      obtain ⟨taken, htake, rfl⟩ := bind_pure_eq_ok hn
      obtain ⟨hdigits, hlen⟩ := take_eq_ok htake
      rw [List.append_nil] at hdigits
      subst hdigits
      -- At most eight digits are announced, and as many fit the number.
      have hle := announced_le first
      have hbound : Bytes.toNatLE digits < UInt64.size :=
        Nat.lt_of_lt_of_le (Bytes.toNatLE_lt digits)
          (Nat.pow_le_pow_right (by decide) (show digits.length ≤ 8 by omega))
      rw [UInt64.toNat_ofNat_of_lt' hbound]
      exact .marked hlt (by rw [hlen, hwidth])

/-- The first byte of a number tells how long it is. -/
theorem Spells.length_eq {n : Nat} {x : Bytes} (h : Spells x n) (rest : Bytes) :
    x.length = announcedBy (x ++ rest) := by
  cases h with
  | small h => exact (announced_of_lt h).symm
  | marked _ hlen => exact hlen

/-- A number of which not all bytes are there. The first one is taken before the others are looked
for. -/
inductive CutOff : Bytes → ReadError → Bytes → Prop
  | empty : CutOff [] (.endOfData 1 0) []
  | digits {first : UInt8} {tail : Bytes} {width : Nat} (hwidth : announced first = width + 1)
      (hlt : tail.length < width) : CutOff (first :: tail) (.endOfData width tail.length) tail

end VarInt

/-! ## Reads that fail -/

namespace Reader

variable {α β : Type}

/-- There are fewer bytes than a width, and none has been taken. -/
inductive TooFew (n : Nat) : Bytes → ReadError → Bytes → Prop
  | intro {b : Bytes} (hlt : b.length < n) : TooFew n b (.endOfData n b.length) b

/-- A length that is cut off, or that is longer than what follows. -/
inductive Unfilled : Bytes → ReadError → Bytes → Prop
  | cutOff {b left : Bytes} {e : ReadError} (h : CutOff b e left) : Unfilled b e left
  | tooLong {x left : Bytes} {n : Nat} (hx : Spells x n) (hlt : left.length < n) :
      Unfilled (x ++ left) (.lengthTooLarge n left.length) left

theorem Unfilled.exists_taken {b left : Bytes} {e : ReadError} (h : Unfilled b e left) :
    ∃ taken, b = taken ++ left := by
  cases h with
  | cutOff h =>
    cases h with
    | empty => exact ⟨[], rfl⟩
    | digits _ _ => exact ⟨[_], rfl⟩
  | tooLong _ _ => exact ⟨_, rfl⟩

/-- **No more than the number in front is taken.** -/
theorem Unfilled.length_le {b left : Bytes} {e : ReadError} (h : Unfilled b e left) :
    b.length ≤ announcedBy b + left.length := by
  cases h with
  | cutOff h =>
    cases h with
    | empty => exact Nat.le_refl 0
    | digits hwidth _ =>
      rw [announcedBy, hwidth, List.length_cons]
      omega
  | tooLong hx _ => rw [List.length_append, hx.length_eq left]

/-- Whatever makes the reader fail, it is related so to what is reported and left. -/
def FailsAs (why : Bytes → ReadError → Bytes → Prop) (r : Reader ReadError α) : Prop :=
  ∀ (b left : Bytes) (e : ReadError), r b = (.error e, left) → why b e left

namespace FailsAs

variable {why : Bytes → ReadError → Bytes → Prop}

theorem bind_pure {r : Reader ReadError α} (h : r.FailsAs why) (g : α → β) :
    (r >>= fun a => Pure.pure (g a)).FailsAs why := by
  intro b left e herr
  obtain herr | ⟨a, mid, -, herr⟩ := bind_eq_error herr
  · exact h _ _ _ herr
  · cases herr

theorem take (n : Nat) : (Reader.take n).FailsAs (TooFew n) := by
  intro b left e h
  by_cases hn : n ≤ b.length
  · rw [take_of_le hn] at h
    cases h
  · rw [take_of_lt (Nat.lt_of_not_le hn)] at h
    cases h
    exact .intro (Nat.lt_of_not_le hn)

theorem fixed (n : Nat) : (Reader.fixed n).FailsAs (TooFew n) := by
  intro b left e h
  simp only [Reader.fixed, List.length_take] at h
  split at h
  · next hlt =>
    cases h
    exact .intro (by omega)
  · cases h

theorem natLE (width : Nat) : (Reader.natLE width).FailsAs (TooFew width) :=
  (take width).bind_pure Bytes.toNatLE

theorem uint32 : Reader.uint32.FailsAs (TooFew 4) :=
  (natLE 4).bind_pure UInt32.ofNat

theorem uint64 : Reader.uint64.FailsAs (TooFew 8) :=
  (natLE 8).bind_pure UInt64.ofNat

theorem hash256 : Reader.hash256.FailsAs (TooFew 32) :=
  (fixed 32).bind_pure fun b => Hash256.mk b.bytes b.length_bytes

/-- A number fails where its digits are cut off. -/
theorem varInt : Reader.varInt.FailsAs CutOff := by
  intro b left e h
  cases b with
  | nil =>
    cases h
    exact .empty
  | cons first tail =>
    by_cases hlt : first.toNat < 0xfd
    · rw [varInt_of_lt tail hlt] at h
      cases h
    · obtain ⟨width, hwidth, hmarked⟩ := varInt_of_marker tail hlt
      rw [hmarked] at h
      obtain ⟨hfew⟩ := (natLE width).bind_pure UInt64.ofNat _ _ _ h
      exact .digits hwidth hfew

/-- A length fails as a number does, or because what follows cannot fill it. -/
theorem length : Reader.length.FailsAs Unfilled := by
  intro b left e h
  obtain h | ⟨declared, mid, hdeclared, hguard⟩ := bind_eq_error h
  · exact .cutOff (varInt _ _ _ h)
  · -- The number is there, and it promises too much.
    obtain ⟨x, hform, rfl⟩ := varInt_eq_ok hdeclared
    obtain hguard | ⟨available, mid', hleft, hguard⟩ := bind_eq_error hguard
    · cases hguard
    cases hleft
    by_cases hroom : mid.length < declared.toNat
    · rw [if_pos hroom] at hguard
      cases hguard
      exact .tooLong hform.spells hroom
    · rw [if_neg hroom] at hguard
      cases hguard

/-- Behind a length there are as many bytes as it says, so only the length can fail. -/
theorem varBytes : Reader.varBytes.FailsAs Unfilled := by
  intro b left e h
  obtain h | ⟨n, mid, hlength, htake⟩ := bind_eq_error h
  · exact length _ _ _ h
  · obtain ⟨-, -, -, hroom⟩ := length_eq_ok hlength
    rw [take_of_le hroom] at htake
    cases htake

theorem varText : Reader.varText.FailsAs Unfilled :=
  varBytes.bind_pure paddedText

end FailsAs

end Reader

end CashWallet
