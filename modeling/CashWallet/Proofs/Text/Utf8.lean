import CashWallet.Text.Utf8
import CashWallet.Wire.Field
import Mathlib.Data.List.Induction

/-!
# `CashWallet/Proofs/Text/Utf8.lean` — text survives its bytes

**Reading the bytes of a text gives the text back** (`ofUtf8Lossy_utf8`), although reading copes
with anything and never says that it had to guess. One character is enough: the reader stands
between characters before it and after it, so the whole text is an induction along its characters.

For one character the cases are the four lengths. The first byte tells the length and narrows the
range of the second, and what has to be seen is that the second byte of a character is always inside
the narrowed range: the forms that the ranges keep out are the ones a character does not have.
Behind the second byte every byte is in the full range, and there is one lemma for a byte in the
middle of a character and one for the last.

A text in a field is padded with zeros, which are cut off again, and so are zeros that were part of
it (`paddedText_utf8`). A zero among the bytes of a text is the character zero, because in the
longer forms every byte has its high bit set; so the padding is cut off the bytes where it is cut
off the characters.
-/

set_option autoImplicit false

namespace CashWallet.Text

/-! ## One byte -/

/-- A byte in the range of a character that was begun goes on with it. -/
theorem decodeFrom_inside {p : Partial} {b : UInt8} {rest : Bytes}
    (hlow : p.lowest ≤ b.toNat) (hhigh : b.toNat ≤ p.highest) :
    decodeFrom (some p) (b :: rest) =
      match p.more with
      | 0 => Char.ofNat (p.bits * 64 + b.toNat % 64) :: decodeFrom none rest
      | more + 1 =>
        decodeFrom (some ⟨p.bits * 64 + b.toNat % 64, more, 0x80, 0xbf⟩) rest := by
  obtain ⟨bits, more, lowest, highest⟩ := p
  have hinside : lowest ≤ b.toNat ∧ b.toNat ≤ highest := ⟨hlow, hhigh⟩
  cases more with
  | zero => simp only [decodeFrom, hinside, and_self, if_true]
  | succ more => simp only [decodeFrom, hinside, and_self, if_true]

theorem decodeFrom_opens {p : Partial} {b : UInt8} {rest : Bytes} (h : lead b = .opens p) :
    decodeFrom none (b :: rest) = decodeFrom (some p) rest := by
  simp only [decodeFrom, decodeFrom.fresh, h]

/-- The bytes of a longer character behind the first all have this form. -/
def sextet (n : Nat) : UInt8 :=
  UInt8.ofNat (n % 0x40 + 0x80)

theorem toNat_sextet (n : Nat) : (sextet n).toNat = n % 0x40 + 0x80 := by
  simp only [sextet, UInt8.toNat_ofNat']
  omega

theorem decodeFrom_last (bits n : Nat) (rest : Bytes) :
    decodeFrom (some ⟨bits, 0, 0x80, 0xbf⟩) (sextet n :: rest) =
      Char.ofNat (bits * 64 + n % 64) :: decodeFrom none rest := by
  have hn := toNat_sextet n
  have hbits : (sextet n).toNat % 64 = n % 64 := by omega
  rw [decodeFrom_inside (by show 0x80 ≤ _; omega) (by show _ ≤ 0xbf; omega), hbits]

theorem decodeFrom_middle {p : Partial} {more n : Nat} (rest : Bytes) (hmore : p.more = more + 1)
    (hlow : p.lowest ≤ n % 0x40 + 0x80) (hhigh : n % 0x40 + 0x80 ≤ p.highest) :
    decodeFrom (some p) (sextet n :: rest) =
      decodeFrom (some ⟨p.bits * 64 + n % 64, more, 0x80, 0xbf⟩) rest := by
  have hn := toNat_sextet n
  have hbits : (sextet n).toNat % 64 = n % 64 := by omega
  rw [decodeFrom_inside (by omega) (by omega), hmore, hbits]

/-! ## The first byte of a character -/

theorem lead_one {n : Nat} (h : n < 0x80) : lead (UInt8.ofNat n) = .char (Char.ofNat n) := by
  have hn : (UInt8.ofNat n).toNat = n := by simp only [UInt8.toNat_ofNat']; omega
  simp only [lead, hn, h, if_true]

/-- Below the first byte of this form there are two that only overlong forms would have. -/
theorem lead_two {n : Nat} (hlow : 0xc2 ≤ n) (hhigh : n < 0xe0) :
    lead (UInt8.ofNat n) = .opens ⟨n - 0xc0, 0, 0x80, 0xbf⟩ := by
  have hn : (UInt8.ofNat n).toNat = n := by simp only [UInt8.toNat_ofNat']; omega
  simp only [lead, hn]
  rw [if_neg (by omega), if_neg (by omega), if_pos hhigh]

/-- The range behind the first of three bytes keeps out what two bytes can say, and surrogates. -/
theorem lead_three {n second : Nat} (hlow : 0xe0 ≤ n) (hhigh : n < 0xf0)
    (hsecond : 0x80 ≤ second ∧ second ≤ 0xbf) (hlong : n = 0xe0 → 0xa0 ≤ second)
    (hvalid : n = 0xed → second ≤ 0x9f) :
    ∃ p, lead (UInt8.ofNat n) = .opens p ∧ p.bits = n - 0xe0 ∧ p.more = 1 ∧
      p.lowest ≤ second ∧ second ≤ p.highest := by
  have hn : (UInt8.ofNat n).toNat = n := by simp only [UInt8.toNat_ofNat']; omega
  simp only [lead, hn]
  rw [if_neg (by omega), if_neg (by omega), if_neg (by omega)]
  by_cases he0 : n = 0xe0
  · exact ⟨_, if_pos he0, by subst he0; rfl, rfl, hlong he0, hsecond.2⟩
  · rw [if_neg he0]
    by_cases hed : n = 0xed
    · exact ⟨_, if_pos hed, by subst hed; rfl, rfl, hsecond.1, hvalid hed⟩
    · rw [if_neg hed]
      exact ⟨_, if_pos hhigh, rfl, rfl, hsecond⟩

/-- The range behind the first of four bytes keeps out what three bytes can say, and what is past
the last code point. -/
theorem lead_four {n second : Nat} (hlow : 0xf0 ≤ n) (hhigh : n ≤ 0xf4)
    (hsecond : 0x80 ≤ second ∧ second ≤ 0xbf) (hlong : n = 0xf0 → 0x90 ≤ second)
    (hvalid : n = 0xf4 → second ≤ 0x8f) :
    ∃ p, lead (UInt8.ofNat n) = .opens p ∧ p.bits = n - 0xf0 ∧ p.more = 2 ∧
      p.lowest ≤ second ∧ second ≤ p.highest := by
  have hn : (UInt8.ofNat n).toNat = n := by simp only [UInt8.toNat_ofNat']; omega
  simp only [lead, hn]
  rw [if_neg (by omega), if_neg (by omega), if_neg (by omega), if_neg (by omega),
    if_neg (by omega), if_neg (by omega)]
  by_cases hf0 : n = 0xf0
  · exact ⟨_, if_pos hf0, by subst hf0; rfl, rfl, hlong hf0, hsecond.2⟩
  · rw [if_neg hf0]
    by_cases hf4 : n = 0xf4
    · rw [if_neg (by omega), if_pos hf4]
      exact ⟨_, rfl, by subst hf4; rfl, rfl, hsecond.1, hvalid hf4⟩
    · rw [if_pos (by omega)]
      exact ⟨_, rfl, rfl, rfl, hsecond⟩

/-! ## One character -/

/-- No character is a surrogate or past the last code point. -/
theorem codePoint_bounds (c : Char) :
    c.toNat < 0xd800 ∨ (0xdfff < c.toNat ∧ c.toNat < 0x110000) :=
  c.valid

/-- **The bytes of a character are read as the character.** -/
theorem decodeFrom_char (c : Char) (rest : Bytes) :
    decodeFrom none (String.utf8EncodeChar c ++ rest) = c :: decodeFrom none rest := by
  have hc := codePoint_bounds c
  have hback : Char.ofNat c.toNat = c := Char.ofNat_toNat c
  have hv : c.val.toNat = c.toNat := rfl
  generalize c.toNat = v at hc hback hv
  simp only [String.utf8EncodeChar, hv]
  -- One case for each length; the conditions on the second byte follow from the bounds of `v`.
  by_cases h1 : v ≤ 0x7f
  · rw [if_pos h1, List.singleton_append]
    simp only [decodeFrom, decodeFrom.fresh, lead_one (show v < 0x80 by omega), hback]
  rw [if_neg h1]
  by_cases h2 : v ≤ 0x7ff
  · rw [if_pos h2, List.cons_append,
      decodeFrom_opens (lead_two (by omega) (by omega))]
    show decodeFrom _ (sextet v :: rest) = _
    have hval : (v / 64 % 0x20 + 0xc0 - 0xc0) * 64 + v % 64 = v := by omega
    rw [decodeFrom_last, hval, hback]
  rw [if_neg h2]
  by_cases h3 : v ≤ 0xffff
  · obtain ⟨p, hp, hbits, hmore, hlow, hhigh⟩ :=
      @lead_three (v / 4096 % 0x10 + 0xe0) (v / 64 % 0x40 + 0x80) (by omega) (by omega) (by omega)
        (by omega) (by omega)
    rw [if_pos h3, List.cons_append, decodeFrom_opens hp]
    show decodeFrom _ (sextet (v / 64) :: sextet v :: rest) = _
    have hval : (p.bits * 64 + v / 64 % 64) * 64 + v % 64 = v := by omega
    rw [decodeFrom_middle _ hmore hlow hhigh, decodeFrom_last, hval, hback]
  · obtain ⟨p, hp, hbits, hmore, hlow, hhigh⟩ :=
      @lead_four (v / 262144 % 0x08 + 0xf0) (v / 4096 % 0x40 + 0x80) (by omega) (by omega)
        (by omega) (by omega) (by omega)
    rw [if_neg h3, List.cons_append, decodeFrom_opens hp]
    show decodeFrom _ (sextet (v / 4096) :: sextet (v / 64) :: sextet v :: rest) = _
    have hval : ((p.bits * 64 + v / 4096 % 64) * 64 + v / 64 % 64) * 64 + v % 64 = v := by omega
    rw [decodeFrom_middle _ hmore hlow hhigh,
      decodeFrom_middle _ rfl (by show 0x80 ≤ _; omega) (by show _ ≤ 0xbf; omega),
      decodeFrom_last, hval, hback]

/-! ## Whole texts -/

theorem decodeFrom_chars (cs : List Char) :
    decodeFrom none (cs.flatMap String.utf8EncodeChar) = cs := by
  induction cs with
  | nil => rw [List.flatMap_nil, decodeFrom]
  | cons c cs ih => rw [List.flatMap_cons, decodeFrom_char, ih]

/-- **Reading the bytes of a text gives the text back.** -/
theorem ofUtf8Lossy_utf8 (s : String) : ofUtf8Lossy (utf8 s) = s := by
  rw [ofUtf8Lossy, utf8, decodeFrom_chars, String.ofList_toList]

theorem utf8EncodeChar_of_lt {c : Char} (h : c.toNat < 0x80) :
    String.utf8EncodeChar c = [UInt8.ofNat c.toNat] :=
  if_pos (Nat.le_of_lt_succ h)

/-- In the longer forms every byte has its high bit set. -/
theorem toNat_lt_of_mem_utf8EncodeChar {c : Char} {b : UInt8}
    (hmem : b ∈ String.utf8EncodeChar c) (hb : b.toNat < 0x80) : c.toNat < 0x80 := by
  -- Each byte of the longer forms is a marker that sets the high bit, with some bits of the
  -- character.
  have hlong : ∀ n : Nat, 0x80 ≤ n % 256 → b ≠ UInt8.ofNat n := by
    rintro n hn rfl
    rw [UInt8.toNat_ofNat'] at hb
    omega
  have hv : c.val.toNat = c.toNat := rfl
  generalize c.toNat = v at hv ⊢
  simp only [String.utf8EncodeChar, hv] at hmem
  by_cases h1 : v ≤ 0x7f
  · omega
  rw [if_neg h1] at hmem
  by_cases h2 : v ≤ 0x7ff
  · rw [if_pos h2] at hmem
    simp only [List.mem_cons, List.not_mem_nil, or_false] at hmem
    rcases hmem with h | h
    all_goals exact absurd h (hlong _ (by omega))
  rw [if_neg h2] at hmem
  by_cases h3 : v ≤ 0xffff
  · rw [if_pos h3] at hmem
    simp only [List.mem_cons, List.not_mem_nil, or_false] at hmem
    rcases hmem with h | h | h
    all_goals exact absurd h (hlong _ (by omega))
  · rw [if_neg h3] at hmem
    simp only [List.mem_cons, List.not_mem_nil, or_false] at hmem
    rcases hmem with h | h | h | h
    all_goals exact absurd h (hlong _ (by omega))

theorem zero_mem_utf8EncodeChar {c : Char} (h : 0 ∈ String.utf8EncodeChar c) : c = '\x00' := by
  have hlt := toNat_lt_of_mem_utf8EncodeChar h (by decide)
  rw [utf8EncodeChar_of_lt hlt, List.mem_singleton] at h
  have hzero : 0 = c.toNat % 256 := by simpa using congrArg UInt8.toNat h
  have hv : c.toNat = 0 := by omega
  rw [← Char.ofNat_toNat c, hv]

theorem zero_notMem_utf8 {s : String} (h : '\x00' ∉ s.toList) : 0 ∉ utf8 s := by
  intro hmem
  obtain ⟨c, hc, hzero⟩ := List.mem_flatMap.mp hmem
  exact h (zero_mem_utf8EncodeChar hzero ▸ hc)

theorem ne_zero_of_mem_utf8EncodeChar {c : Char} (hc : c ≠ '\x00') {b : UInt8}
    (hb : b ∈ String.utf8EncodeChar c) : (b == 0) = false := by
  rw [beq_eq_false_iff_ne]
  rintro rfl
  exact hc (zero_mem_utf8EncodeChar hb)

/-- Zeros at the end of the bytes are the zeros at the end of the text. -/
theorem trim_utf8 (cs : List Char) :
    ((cs.flatMap String.utf8EncodeChar).reverse.dropWhile (· == 0)).reverse =
      (cs.reverse.dropWhile (· == '\x00')).reverse.flatMap String.utf8EncodeChar := by
  induction cs using List.reverseRecOn with
  | nil => rfl
  | append_singleton cs c ih =>
    rw [List.flatMap_append, List.flatMap_singleton, List.reverse_append, List.reverse_append,
      List.reverse_singleton, List.singleton_append]
    by_cases hc : c = '\x00'
    · subst hc
      rw [List.dropWhile_cons_of_pos rfl, ← ih]
      rfl
    · -- The last byte of another character is not zero, so both cuts stop here.
      obtain ⟨b, init, hlast⟩ := List.exists_cons_of_ne_nil
        (List.reverse_ne_nil_iff.mpr (String.utf8EncodeChar_ne_nil (c := c)))
      have hb : (b == 0) = false := by
        refine ne_zero_of_mem_utf8EncodeChar hc ?_
        rw [← List.mem_reverse, hlast]
        exact List.mem_cons_self
      rw [List.dropWhile_cons_of_neg (by simpa using hc), hlast, List.cons_append,
        List.dropWhile_cons_of_neg (by simp [hb]), ← List.cons_append, ← hlast]
      simp

end CashWallet.Text

namespace CashWallet

/-- A text comes back from its field without the zeros at its end. -/
theorem paddedText_utf8 (s : String) :
    paddedText (Text.utf8 s) =
      String.ofList (s.toList.reverse.dropWhile (· == '\x00')).reverse := by
  rw [paddedText, Text.utf8, Text.trim_utf8, Text.ofUtf8Lossy, Text.decodeFrom_chars]

/-- **A text that does not end in a zero comes back from its field.** -/
theorem paddedText_utf8_of_getLast? {s : String} (h : s.toList.getLast? ≠ some '\x00') :
    paddedText (Text.utf8 s) = s := by
  have hkeep : s.toList.reverse.dropWhile (· == '\x00') = s.toList.reverse := by
    rw [← List.head?_reverse] at h
    cases hs : s.toList.reverse with
    | nil => rfl
    | cons c rest =>
      rw [hs] at h
      exact List.dropWhile_cons_of_neg (by simpa using h)
  rw [paddedText_utf8, hkeep, List.reverse_reverse, String.ofList_toList]

end CashWallet
