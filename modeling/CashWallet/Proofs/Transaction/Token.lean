import CashWallet.Proofs.Wire.Form
import CashWallet.Transaction.Output

/-!
# `CashWallet/Proofs/Transaction/Token.lean` — tokens are split off and put back

The flags of a token say which of its fields are in front of a script. They are written as they are,
so also the flags without a meaning come back; **what is read agrees with its flags, and what agrees
with its flags is read back**, whatever script stands behind it (`CashToken.split_lossless`).

Putting a token back in front of the script that it was split off from gives the old script, unless
one of the two numbers that a token may have, the length of its commitment and its amount, stood in
a form that is not the shortest. A number that is not announced is not asked about.

That fields may be left out is dealt with once for any field (`Reader.Reads.announced`,
`Reader.announced_eq_ok`): under a flag it is read and written as a field, and without the flag
nothing is read and nothing is written. Reading a token is then a row of four fields
(`CashToken.readFields_eq`), of which two are announced.

What is asked of a consistent token, that its capability is the one that its flags show and that it
has no field which is not announced, is said again in terms of single bits, for this is how the
flags are laid down (`CashToken.isConsistent_iff`).
-/

set_option autoImplicit false

namespace CashWallet

open Reader VarInt

/-! ## Flags -/

namespace TokenFlag

/-- A flag is one bit. -/
theorem isSet_eq_testBit (flag : UInt8) (k : Nat) (h : flag.toNat = 2 ^ k) (flags : UInt8) :
    isSet flags flag = flags.toNat.testBit k := by
  have hand : (flags &&& flag).toNat = (flags.toNat.testBit k).toNat * 2 ^ k := by
    rw [UInt8.toNat_and, h, Nat.and_two_pow]
  rw [isSet, Bool.eq_iff_iff, bne_iff_ne, Ne, ← UInt8.toNat_inj, hand]
  cases flags.toNat.testBit k with
  | true => simp
  | false => simp

/-- The capability in terms of the bits of the flags. -/
theorem capability?_eq (flags : UInt8) :
    capability? flags =
      if flags.toNat.testBit 5 then
        some (if flags.toNat.testBit 1 then .minting
          else if flags.toNat.testBit 0 then .mutable else .immutable)
      else none := by
  have hnonFungible := isSet_eq_testBit nonFungible 5 rfl flags
  have hminting := isSet_eq_testBit minting 1 rfl flags
  have hmutable := isSet_eq_testBit mutable 0 rfl flags
  rw [capability?, hnonFungible, hminting, hmutable]
  cases flags.toNat.testBit 5 with
  | false => rfl
  | true =>
    cases flags.toNat.testBit 1 with
    | true => rfl
    | false =>
      cases flags.toNat.testBit 0 with
      | true => rfl
      | false => rfl

end TokenFlag

/-! ## Fields that may be left out -/

namespace Reader

variable {ε α : Type}

/-- A field that is there only under a condition, with what stands for it otherwise. -/
theorem Reads.announced {c : Bool} {r : Reader ε α} {x : Bytes} {a absent : α}
    (hr : c = true → Reads r x a) (habsent : c = false → a = absent) :
    Reads (if c then r else yield absent) (if c then x else []) a := by
  cases c with
  | true => exact hr rfl
  | false =>
    rw [habsent rfl]
    exact Reads.pure absent

/-- What was taken for such a field is the field, in some form of its number, or nothing. -/
theorem announced_eq_ok (encodeIn : α → Bytes → Bytes) (number : α → Nat) {c : Bool}
    {r : Reader ε α} {absent : α}
    (hr : ∀ {b rest : Bytes} {a : α}, r b = (.ok a, rest) →
      ∃ x, IsForm (number a) x ∧ b = encodeIn a x ++ rest)
    {b rest : Bytes} {a : α} (h : (if c then r else yield absent) b = (.ok a, rest)) :
    (c = false → a = absent) ∧
      ∃ x, (c = true → IsForm (number a) x) ∧ b = (if c then encodeIn a x else []) ++ rest := by
  cases c with
  | true =>
    obtain ⟨x, hx, hb⟩ := hr h
    exact ⟨fun hc => Bool.noConfusion hc, x, fun _ => hx, hb⟩
  | false =>
    cases h
    exact ⟨fun _ => rfl, [], fun hc => Bool.noConfusion hc, rfl⟩

end Reader

/-! ## Tokens -/

namespace CashToken

open TokenFlag (isSet)

/-- Consistency said bit by bit. -/
theorem isConsistent_iff (t : CashToken) :
    t.IsConsistent ↔
      t.capability =
          (if t.flags.toNat.testBit 5 then
            some (if t.flags.toNat.testBit 1 then .minting
              else if t.flags.toNat.testBit 0 then .mutable else .immutable)
          else none) ∧
        (t.flags.toNat.testBit 6 = false → t.commitment = []) ∧
        (t.flags.toNat.testBit 4 = false → t.amount = 0) := by
  rw [← TokenFlag.capability?_eq,
    ← TokenFlag.isSet_eq_testBit TokenFlag.commitment 6 rfl,
    ← TokenFlag.isSet_eq_testBit TokenFlag.amount 4 rfl]
  constructor
  · intro h
    exact ⟨h.capability, h.commitment, h.amount⟩
  · rintro ⟨hcapability, hcommitment, hamount⟩
    exact ⟨hcapability, hcommitment, hamount⟩

/-- What is asked of a number and its form is so for the numbers that the token has: the length of
its commitment and its amount, if they are announced. -/
structure EachNumber (p : Nat → Bytes → Prop) (t : CashToken) (length amount : Bytes) : Prop where
  length : isSet t.flags TokenFlag.commitment = true → p t.commitment.length length
  amount : isSet t.flags TokenFlag.amount = true → p t.amount.toNat amount

/-- The bytes of a token with its numbers in forms of choice. -/
def encodeIn (t : CashToken) (length amount : Bytes) : Bytes :=
  Opcode.tokenMarker :: (t.category.bytes ++ t.flags ::
    ((if isSet t.flags TokenFlag.commitment then length ++ t.commitment else []) ++
      (if isSet t.flags TokenFlag.amount then amount else [])))

/-- The fields are read one after the other, also those that may be left out. -/
theorem readFields_eq :
    readFields =
      Reader.hash256 >>= fun category =>
      Reader.byte >>= fun flags =>
      (if isSet flags TokenFlag.commitment then Reader.varBytes else yield []) >>= fun commitment =>
      (if isSet flags TokenFlag.amount then Reader.varInt else yield 0) >>= fun amount =>
      pure ⟨category, flags, TokenFlag.capability? flags, commitment, amount⟩ := by
  have hbranch {α β : Type} (c : Bool) (r s : Reader ReadError α) (k : α → Reader ReadError β) :
      (if c then r >>= k else s >>= k) = (if c then r else s) >>= k := by
    cases c with
    | true => rfl
    | false => rfl
  simp only [readFields, hbranch]

/-! ### Reading a token -/

/-- **What is read agrees with its flags**, and it was taken from its bytes in some forms. -/
theorem readFields_eq_ok {b rest : Bytes} {t : CashToken} (h : readFields b = (.ok t, rest)) :
    t.IsConsistent ∧ ∃ length amount, t.EachNumber IsForm length amount ∧
      Opcode.tokenMarker :: b = t.encodeIn length amount ++ rest := by
  rw [readFields_eq] at h
  obtain ⟨category, b₁, hcategory, h⟩ := bind_eq_ok h
  obtain ⟨flags, b₂, hflags, h⟩ := bind_eq_ok h
  obtain ⟨commitment, b₃, hcommitment, h⟩ := bind_eq_ok h
  obtain ⟨amount, hamount, rfl⟩ := bind_pure_eq_ok h
  obtain ⟨hnone, length, hlength, hb₂⟩ :=
    announced_eq_ok (fun y x => x ++ y) List.length (fun h => by
      simpa only [List.append_assoc] using varBytes_eq_ok h) hcommitment
  obtain ⟨hzero, form, hform, hb₃⟩ :=
    announced_eq_ok (fun _ x => x) UInt64.toNat varInt_eq_ok hamount
  refine ⟨⟨rfl, hnone, hzero⟩, length, form, ⟨hlength, hform⟩, ?_⟩
  rw [hash256_eq_ok hcategory, byte_eq_ok hflags, hb₂, hb₃]
  simp only [encodeIn, List.append_assoc, List.cons_append]

/-- What was split off agrees with its flags, and the script is the token in some forms and the
rest. -/
theorem split_eq_ok {script rest : Bytes} {t : CashToken} (h : split script = .ok (t, rest)) :
    t.IsConsistent ∧ ∃ length amount, t.EachNumber IsForm length amount ∧
      script = t.encodeIn length amount ++ rest := by
  rw [split] at h
  cases hread : read script with
  | mk o left =>
    rw [hread] at h
    cases o with
    | error e => cases h
    | ok token =>
      cases h
      obtain ⟨marker, b, hmarker, hread⟩ := bind_eq_ok hread
      have hscript := byte_eq_ok (fields_eq_ok hmarker)
      by_cases hmarked : marker = Opcode.tokenMarker
      · rw [if_pos hmarked] at hread
        rw [hscript, hmarked]
        exact readFields_eq_ok (fields_eq_ok hread)
      · rw [if_neg hmarked] at hread
        cases hread

/-! ### Putting a token back -/

/-- **What agrees with its flags is read back**, whatever stands behind it. -/
theorem reads {t : CashToken} (h : t.IsConsistent) (hfit : t.commitment.length < UInt64.size) :
    Reads read t.encode t := by
  have hback : CashToken.mk t.category t.flags (TokenFlag.capability? t.flags) t.commitment
      t.amount = t := by
    rw [← h.capability]
  have hcommitment := Reads.announced (c := isSet t.flags TokenFlag.commitment)
    (fun _ => Reads.varBytes hfit) h.commitment
  have hamount := Reads.announced (c := isSet t.flags TokenFlag.amount)
    (fun _ => Reads.varInt t.amount) h.amount
  refine (Reads.byte Opcode.tokenMarker).fields.bind ?_
  rw [if_pos rfl]
  refine Reads.fields ?_
  rw [readFields_eq]
  refine (Reads.hash256 t.category).bind ?_
  refine (Reads.byte t.flags).bind ?_
  have hlast := hamount.bind_pure fun amount => CashToken.mk t.category t.flags
    (TokenFlag.capability? t.flags) t.commitment amount
  rw [hback] at hlast
  exact hcommitment.bind hlast

/-- **A token in some forms is the written one when each of them is the shortest.** -/
theorem isFormWhen_encodeIn {t : CashToken} {length amount : Bytes}
    (h : t.EachNumber IsForm length amount) :
    IsFormWhen (t.EachNumber IsShortest length amount) t.encode (t.encodeIn length amount) := by
  have hamount : VarInt.encode t.amount = ofCount t.amount.toNat := by
    rw [ofCount, UInt64.ofNat_toNat]
  rw [encode, encodeIn, hamount]
  have hlength := IsFormWhen.announced fun hc => (h.length hc).isFormWhen.extend t.commitment
  have hfields := hlength.append (IsFormWhen.announced fun hc => (h.amount hc).isFormWhen)
  have hflags := (hfields.prepend [t.flags]).prepend t.category.bytes
  refine (hflags.prepend [Opcode.tokenMarker]).congr ?_
  constructor
  · rintro ⟨hlength, hamount⟩
    exact ⟨hlength, hamount⟩
  · rintro ⟨hlength, hamount⟩
    exact ⟨hlength, hamount⟩

theorem split_append {t : CashToken} (h : t.IsConsistent)
    (hfit : t.commitment.length < UInt64.size) (s : Bytes) : split (t.encode ++ s) = .ok (t, s) := by
  rw [split, reads h hfit s]

/-! ### Both ways -/

/-- **Splitting a token off loses nothing.** A token that was split off is consistent, which is to
say that its capability is the one its flags show, and that it has a commitment and an amount only
where they are announced. A consistent token in front of any script is split off as it is, if 64
bits hold the length of its commitment. And when a token was split off from a script, what stands
behind it is the end of the script; the script is the token with its numbers in some forms and that
end; and putting the token back in front gives the script exactly when each number that is there had
its shortest form. -/
theorem split_lossless :
    (∀ t : CashToken, t.IsConsistent ↔
      t.capability =
          (if t.flags.toNat.testBit 5 then
            some (if t.flags.toNat.testBit 1 then .minting
              else if t.flags.toNat.testBit 0 then .mutable else .immutable)
          else none) ∧
        (t.flags.toNat.testBit 6 = false → t.commitment = []) ∧
        (t.flags.toNat.testBit 4 = false → t.amount = 0)) ∧
      (∀ (t : CashToken) (s : Bytes), t.IsConsistent → t.commitment.length < UInt64.size →
        split (t.encode ++ s) = .ok (t, s)) ∧
      ∀ (script rest : Bytes) (t : CashToken), split script = .ok (t, rest) →
        t.IsConsistent ∧ rest.length ≤ script.length ∧
          rest = script.drop (script.length - rest.length) ∧
          (∃ length amount, t.EachNumber IsForm length amount ∧
            script = t.encodeIn length amount ++ rest) ∧
          ∀ length amount, t.EachNumber IsForm length amount →
            script = t.encodeIn length amount ++ rest →
            (t.encode ++ script.drop (script.length - rest.length) = script ↔
              t.EachNumber IsShortest length amount) := by
  refine ⟨isConsistent_iff, fun t s h hfit => split_append h hfit s, fun script rest t h => ?_⟩
  obtain ⟨hconsistent, length, amount, hforms, rfl⟩ := split_eq_ok h
  have hrest : rest = (t.encodeIn length amount ++ rest).drop
      ((t.encodeIn length amount ++ rest).length - rest.length) := by
    rw [List.length_append, Nat.add_sub_cancel, List.drop_left]
  refine ⟨hconsistent, ?_, hrest, ⟨length, amount, hforms, rfl⟩, ?_⟩
  · rw [List.length_append]
    exact Nat.le_add_left _ _
  · intro length' amount' hforms' hscript
    rw [← hrest, hscript, List.append_left_inj]
    exact (isFormWhen_encodeIn hforms').eq_iff

/-- A token with every field, and with a flag that has no meaning. -/
def everyField : CashToken :=
  ⟨.zero, 0xf2, some .minting, [0xca, 0xfe], 1000⟩

/-- A script behind it, where the length of the commitment stands in three bytes. -/
def longScript : Bytes :=
  everyField.encodeIn [0xfd, 2, 0] [0xfd, 0xe8, 0x03] ++ [0x51]

theorem eachNumber_everyField : everyField.EachNumber IsForm [0xfd, 2, 0] [0xfd, 0xe8, 0x03] where
  length := fun _ => ⟨2, rfl, fun _ => rfl⟩
  amount := fun _ => ⟨1000, rfl, fun _ => rfl⟩

/-- The token is read from either script, and put back in front of the rest it gives the one with
the shorter numbers. -/
theorem split_lossless_everyField :
    everyField.IsConsistent ∧ split (everyField.encode ++ [0x51]) = .ok (everyField, [0x51]) ∧
      split longScript = .ok (everyField, [0x51]) ∧
      everyField.encode ++ longScript.drop (longScript.length - 1) ≠ longScript := by
  obtain ⟨hconsistent, hback, hsplit⟩ := split_lossless
  have heach : everyField.IsConsistent := (hconsistent everyField).mpr (by decide)
  have hlong : split longScript = .ok (everyField, [0x51]) := rfl
  refine ⟨heach, hback _ _ heach (by decide), hlong, fun hsame => ?_⟩
  obtain ⟨-, -, -, -, hshortest⟩ := hsplit _ _ _ hlong
  -- One byte would do for the length of the commitment.
  have hlength := ((hshortest _ _ eachNumber_everyField rfl).mp hsame).length rfl
  exact absurd (hlength [2] ⟨2, rfl, fun _ => rfl⟩) (by decide)

end CashToken

end CashWallet
