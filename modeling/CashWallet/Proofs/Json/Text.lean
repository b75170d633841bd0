import CashWallet.Json.Text
import Mathlib.Data.List.TakeDrop

/-!
# `CashWallet/Proofs/Json/Text.lean` — texts and numbers are read as they were written

What stands for a character between quotes is read as one unit, and the unit spells the character
again, whatever units follow (`exists_unit`). Only a control character is written by its number, and
such a number is no surrogate, so that **the units of a written text spell the text without looking
at one another** (`readText_quote`).

A whole number is written with as many digits as it needs. It is read up to the first character that
could not belong to a number; what follows it in a text that was written never could (`EndsNumber`).
That is the one condition on what follows anywhere: texts end at their quote, and words and brackets
end by themselves.

The reader of numbers goes on with a point and an exponent behind the digits. Neither is there, and
what is left is the same before and behind them, which is how the reader knows a whole number
(`readNumber_integerChars`). It is not read as foreign, because zero is never written with a sign.
-/

set_option autoImplicit false

namespace CashWallet.JsonValue

/-! ## Text -/

/-- The unit stands for the character, whatever units follow. -/
def TextUnit.Spells (u : TextUnit) (c : Char) : Prop :=
  ∀ us, spell? (u :: us) = (spell? us).map (c :: ·)

namespace TextUnit.Spells

theorem char (c : Char) : (TextUnit.char c).Spells c :=
  fun _ => by rw [spell?]

/-- A number below the surrogates stands for its character. -/
theorem unit {n : Nat} (h : n < 0xd800) : (TextUnit.unit n).Spells (Char.ofNat n) := by
  intro us
  have hhigh : ¬ (0xd800 ≤ n ∧ n < 0xdc00) := by omega
  have hlow : ¬ (0xdc00 ≤ n ∧ n < 0xe000) := by omega
  have hlone : ¬ (0xd800 ≤ n ∧ n < 0xe000) := by omega
  cases us with
  | nil => simp only [spell?, if_neg hlone]
  | cons u us =>
    cases u with
    | char c => simp only [spell?, if_neg hlone]
    | unit m => simp only [spell?, if_neg hhigh, if_neg hlow]

end TextUnit.Spells

theorem hexValue?_hexDigit : ∀ n < 16, hexValue? (hexDigit n) = some n := by
  decide

/-- The four digits of a byte that is written by its number. -/
theorem unitOf?_hexDigits {n : Nat} (h : n < 256) :
    unitOf? '0' '0' (hexDigit (n / 16)) (hexDigit (n % 16)) = some n := by
  have hzero : hexValue? '0' = some 0 := rfl
  have hhigh := hexValue?_hexDigit (n / 16) (by omega)
  have hlow := hexValue?_hexDigit (n % 16) (by omega)
  have hvalue : ((0 * 16 + 0) * 16 + n / 16) * 16 + n % 16 = n := by omega
  rw [unitOf?, hzero, hhigh, hlow]
  exact congrArg some hvalue

/-- **A character is written as one unit** that spells it. -/
theorem exists_unit (c : Char) : ∃ u : TextUnit, u.Spells c ∧
    ∀ rest, readUnits (escape c ++ rest) = consUnit u (readUnits rest) := by
  unfold escape
  split
  · exact ⟨.char '"', .char _, fun rest => rfl⟩
  · exact ⟨.char '\\', .char _, fun rest => rfl⟩
  · exact ⟨.char '\x08', .char _, fun rest => rfl⟩
  · exact ⟨.char '\x0c', .char _, fun rest => rfl⟩
  · exact ⟨.char '\n', .char _, fun rest => rfl⟩
  · exact ⟨.char '\r', .char _, fun rest => rfl⟩
  · exact ⟨.char '\t', .char _, fun rest => rfl⟩
  · rename_i hquote hslash _ _ _ _ _
    split
    · rename_i hcontrol
      have hunit := unitOf?_hexDigits (Nat.lt_trans hcontrol (by decide : 0x20 < 256))
      refine ⟨.unit c.toNat, ?_, fun rest => ?_⟩
      · have hspells := TextUnit.Spells.unit (n := c.toNat) (by omega)
        rwa [Char.ofNat_toNat] at hspells
      · simp only [List.cons_append, List.nil_append, readUnits, hunit]
    · rename_i hplain
      refine ⟨.char c, .char c, fun rest => ?_⟩
      rw [List.singleton_append, readUnits, if_neg hplain]
      · exact hquote
      · exact fun _ _ _ _ _ hc _ => hslash hc
      · exact fun _ _ hc _ => hslash hc
      · exact fun hc _ => hslash hc

/-- The units of a written text, and what follows it. -/
theorem exists_units (cs : List Char) : ∃ us, spell? us = some cs ∧
    ∀ rest, readUnits (cs.flatMap escape ++ '"' :: rest) = some (us, rest) := by
  induction cs with
  | nil => exact ⟨[], rfl, fun rest => rfl⟩
  | cons c cs ih =>
    obtain ⟨u, hspells, hunit⟩ := exists_unit c
    obtain ⟨us, hus, hunits⟩ := ih
    refine ⟨u :: us, by rw [hspells us, hus]; rfl, fun rest => ?_⟩
    rw [List.flatMap_cons, List.append_assoc, hunit, hunits rest]
    rfl

/-- **A text is read as it was written**, behind its opening quote. -/
theorem readText_quote (s : String) (rest : List Char) :
    readText (s.toList.flatMap escape ++ '"' :: rest) = some (some s, rest) := by
  obtain ⟨us, hus, hunits⟩ := exists_units s.toList
  rw [readText, hunits rest, Option.map_some]
  simp only [hus, Option.map_some, String.ofList_toList]

/-! ## Numbers -/

/-- Nothing that could go on with a number stands in front. -/
def EndsNumber (rest : List Char) : Prop :=
  ∀ c ∈ rest.head?, isDigit c = false ∧ c ≠ '.' ∧ c ≠ 'e' ∧ c ≠ 'E'

theorem isDigit_of_mem_toDigits {n : Nat} {c : Char} (h : c ∈ Nat.toDigits 10 n) :
    isDigit c = true := by
  have hdigit := Char.isDigit_iff_toNat.mp
    (Nat.isDigit_of_mem_toDigits (by decide) (Nat.le_refl 10) h)
  rw [isDigit, Bool.and_eq_true, decide_eq_true_eq, decide_eq_true_eq]
  exact hdigit

/-- A number has a first digit. -/
theorem exists_toDigits_eq_cons (n : Nat) :
    ∃ c cs, Nat.toDigits 10 n = c :: cs ∧ isDigit c = true := by
  obtain ⟨c, cs, hcs⟩ := List.exists_cons_of_ne_nil (@Nat.toDigits_ne_nil n 10)
  exact ⟨c, cs, hcs, isDigit_of_mem_toDigits (hcs ▸ List.mem_cons_self)⟩

/-- The digits of a number write it. -/
theorem digitsValue_toDigits (n : Nat) : digitsValue (Nat.toDigits 10 n) = n := by
  have hfold : (fun acc (c : Char) => acc * 10 + (c.toNat - 48)) =
      fun acc (c : Char) => 10 * acc + (c.toNat - '0'.toNat) := by
    funext acc c
    rw [Nat.mul_comm]
    rfl
  rw [digitsValue, hfold, ← Nat.ofDigitChars_eq_foldl, Nat.ofDigitChars_ten_toDigits]

/-- Only zero begins with a zero. -/
theorem head?_toDigits {n : Nat} (h : n ≠ 0) : (Nat.toDigits 10 n).head? ≠ some '0' := by
  induction n using Nat.strongRecOn with
  | ind n ih =>
    by_cases hsmall : n < 10
    · have hdigit : ∀ n < 10, n ≠ 0 → n.digitChar ≠ '0' := by decide
      rw [Nat.toDigits_of_lt_base hsmall, List.head?_cons]
      exact fun hzero => hdigit n hsmall h (Option.some.inj hzero)
    · rw [Nat.toDigits_of_base_le (by decide) (by omega)]
      obtain ⟨c, cs, hcs, _⟩ := exists_toDigits_eq_cons (n / 10)
      have hhead := ih (n / 10) (by omega) (by omega)
      rw [hcs] at hhead ⊢
      exact hhead

/-- The digits end where the number does. -/
theorem span_toDigits (n : Nat) {rest : List Char} (hrest : EndsNumber rest) :
    (Nat.toDigits 10 n ++ rest).span isDigit = (Nat.toDigits 10 n, rest) := by
  have hdigits : ∀ c ∈ Nat.toDigits 10 n, isDigit c = true :=
    fun _ => isDigit_of_mem_toDigits
  rw [List.span_eq_takeWhile_dropWhile, List.takeWhile_append_of_pos hdigits,
    List.dropWhile_append_of_pos hdigits]
  cases rest with
  | nil => rw [List.takeWhile_nil, List.dropWhile_nil, List.append_nil]
  | cons c rest =>
    have hc : ¬ isDigit c = true := by
      rw [(hrest c rfl).1]
      exact Bool.false_ne_true
    rw [List.takeWhile_cons_of_neg hc, List.dropWhile_cons_of_neg hc, List.append_nil]

/-- **The digits of a number are all that is read** before something that ends it. -/
theorem readWhole_toDigits (n : Nat) {rest : List Char} (hrest : EndsNumber rest) :
    readWhole (Nat.toDigits 10 n ++ rest) = some (Nat.toDigits 10 n, rest) := by
  have hread : readDigits (Nat.toDigits 10 n ++ rest) = some (Nat.toDigits 10 n, rest) := by
    rw [readDigits, span_toDigits n hrest]
    split
    · rename_i hnil
      exact absurd (congrArg Prod.fst hnil) Nat.toDigits_ne_nil
    · rfl
  rw [readWhole, hread]
  split
  · -- More digits behind a zero are not read, but there are none.
    rename_i hzero
    injection hzero with hzero
    have hdigits := congrArg Prod.fst hzero
    by_cases hn : n = 0
    · rw [hn] at hdigits
      cases hdigits
    · exact absurd (congrArg List.head? hdigits) (head?_toDigits hn)
  · rfl

theorem skipFraction_of_endsNumber {rest : List Char} (h : EndsNumber rest) :
    skipFraction rest = some rest := by
  unfold skipFraction
  split
  · exact absurd rfl (h '.' rfl).2.1
  · rfl

theorem skipExponent_of_endsNumber {rest : List Char} (h : EndsNumber rest) :
    skipExponent rest = some rest := by
  unfold skipExponent
  split
  · exact absurd rfl (h 'e' rfl).2.2.1
  · exact absurd rfl (h 'E' rfl).2.2.2
  · rfl

/-- **A whole number is read as it was written** before something that ends it. -/
theorem readNumber_integerChars (n : Int) {rest : List Char} (hrest : EndsNumber rest) :
    readNumber (integerChars n ++ rest) = some (integer n, rest) := by
  have hwhole := readWhole_toDigits n.natAbs hrest
  have hfraction := skipFraction_of_endsNumber hrest
  have hexponent := skipExponent_of_endsNumber hrest
  have hvalue := digitsValue_toDigits n.natAbs
  by_cases hn : n < 0
  · have hpos : (n.natAbs == 0) = false := by
      rw [beq_eq_false_iff_ne]
      omega
    have hneg : -(n.natAbs : Int) = n := by omega
    rw [integerChars, if_pos hn, List.cons_append, readNumber]
    simp only [hwhole, Option.bind_eq_bind, Option.bind_some, hfraction, hexponent, hvalue, hpos,
      hneg, beq_self_eq_true, Bool.and_false, Bool.not_false, Bool.and_true, if_true]
    rfl
  · have hnonneg : (n.natAbs : Int) = n := by omega
    -- The reader looks for a sign first, and a digit is none.
    have hsign : ∀ after, Nat.toDigits 10 n.natAbs ++ rest ≠ '-' :: after := by
      intro after h
      obtain ⟨c, cs, hcs, hc⟩ := exists_toDigits_eq_cons n.natAbs
      rw [hcs, List.cons_append] at h
      rw [(List.cons.inj h).1] at hc
      exact absurd hc (by decide)
    rw [integerChars, if_neg hn, readNumber]
    · simp only [hwhole, Option.bind_eq_bind, Option.bind_some, hfraction, hexponent, hvalue,
        hnonneg, beq_self_eq_true, Bool.false_and, Bool.not_false, Bool.and_true, if_true,
        Bool.false_eq_true, if_false]
      rfl
    · exact hsign

/-- A number is known for one by its first character. -/
theorem exists_integerChars_eq_cons (n : Int) :
    ∃ c cs, integerChars n = c :: cs ∧ (c == '-' || isDigit c) = true := by
  obtain ⟨c, cs, hcs, hc⟩ := exists_toDigits_eq_cons n.natAbs
  by_cases hn : n < 0
  · exact ⟨'-', _, by rw [integerChars, if_pos hn], rfl⟩
  · exact ⟨c, cs, by rw [integerChars, if_neg hn, hcs], by rw [hc, Bool.or_true]⟩

end CashWallet.JsonValue
