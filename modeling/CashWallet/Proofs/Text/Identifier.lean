import CashWallet.Json.Scalar
import CashWallet.Proofs.Json.Record
import CashWallet.Proofs.Text.Hex
import CashWallet.Proofs.Text.Utf8

/-!
# `CashWallet/Proofs/Text/Identifier.lean` — the texts of an identifier

An identifier is shown in 64 digits and may be asked for with fewer: zeros in front are left out,
also the high digit of the first byte alone, and letters stand in either case. **A text is read
exactly when it consists of at most 64 digits, and what it is read as is shown by the same digits**
in lower case, with the zeros filled in (`Hash256.parse_exact`).

Reading goes through three forms of the text, its bytes, their pairs and the string that the pairs
write, and each is padded or turned around on its own. What they keep is seen on the digits alone:
the string that was read is written with the digits that were read (`Hex.exists_decodePairs`).

That a text is refused is shown from the other end. Whatever is read comes from bytes each of which
is a digit (`Hex.isSome_of_decodeBytes`), and a character with such a byte is that digit, since the
bytes of longer characters are all above the digits. The length is asked for in bytes before
anything is read, and for a text of digits bytes and characters are the same number.
-/

set_option autoImplicit false

namespace CashWallet

namespace Hex

/-- The characters that are digits, in either case. -/
def IsDigit (c : Char) : Prop :=
  '0' ≤ c ∧ c ≤ '9' ∨ 'a' ≤ c ∧ c ≤ 'f' ∨ 'A' ≤ c ∧ c ≤ 'F'

instance : DecidablePred IsDigit :=
  fun _ => inferInstanceAs (Decidable (_ ∨ _ ∨ _))

/-! ## One digit -/

/-- A digit has a value, and the value is written as the digit in lower case. -/
theorem digitValue?_ofNat : ∀ n < 0x80, IsDigit (Char.ofNat n) →
    ∃ v < 16, digitValue? (UInt8.ofNat n) = some v ∧ digitChar v = (Char.ofNat n).toLower := by
  decide

theorem isDigit_ofNat : ∀ n < 0x80, (digitValue? (UInt8.ofNat n)).isSome →
    IsDigit (Char.ofNat n) := by
  decide

theorem IsDigit.toNat_lt {c : Char} (h : IsDigit c) : c.toNat < 0x80 := by
  obtain ⟨-, h⟩ | ⟨-, h⟩ | ⟨-, h⟩ := h
  all_goals
    have hle := UInt32.le_iff_toNat_le.mp (Char.le_def.mp h)
    exact Nat.lt_of_le_of_lt hle (by decide)

theorem digitValue?_lt {b : UInt8} (h : (digitValue? b).isSome) : b.toNat < 0x80 := by
  unfold digitValue? at h
  by_contra hge
  simp only [show ¬ (48 ≤ b.toNat ∧ b.toNat ≤ 57) by omega,
    show ¬ (97 ≤ b.toNat ∧ b.toNat ≤ 102) by omega, show ¬ (65 ≤ b.toNat ∧ b.toNat ≤ 70) by omega,
    if_false] at h
  cases h

/-- A digit is one byte, whose value is written as the digit in lower case. -/
theorem IsDigit.exists_value {c : Char} (h : IsDigit c) :
    String.utf8EncodeChar c = [UInt8.ofNat c.toNat] ∧
      ∃ v < 16, digitValue? (UInt8.ofNat c.toNat) = some v ∧ digitChar v = c.toLower := by
  have hlt := h.toNat_lt
  have hvalue := digitValue?_ofNat c.toNat hlt
  rw [Char.ofNat_toNat] at hvalue
  exact ⟨Text.utf8EncodeChar_of_lt hlt, hvalue h⟩

/-- A character with a byte that is a digit is the digit. -/
theorem isDigit_of_mem {c : Char} {b : UInt8} (hb : b ∈ String.utf8EncodeChar c)
    (h : (digitValue? b).isSome) : IsDigit c := by
  have hlt := Text.toNat_lt_of_mem_utf8EncodeChar hb (digitValue?_lt h)
  rw [Text.utf8EncodeChar_of_lt hlt, List.mem_singleton] at hb
  rw [hb] at h
  have hdigit := isDigit_ofNat c.toNat hlt h
  rwa [Char.ofNat_toNat] at hdigit

/-! ## Pairs of digits -/

theorem encodeChars_cons {h l : Nat} (hh : h < 16) (hl : l < 16) (tail : Bytes) :
    encodeChars (UInt8.ofNat (16 * h + l) :: tail) =
      digitChar h :: digitChar l :: encodeChars tail := by
  have hbyte : (UInt8.ofNat (16 * h + l)).toNat = 16 * h + l := by
    rw [UInt8.toNat_ofNat']
    omega
  have hhigh : (16 * h + l) / 16 = h := by omega
  have hlow : (16 * h + l) % 16 = l := by omega
  rw [encodeChars, List.flatMap_cons, hbyte, hhigh, hlow, ← encodeChars]
  rfl

/-- **Digits in pairs write a string that is written with the same digits.** -/
theorem exists_decodePairs : ∀ {cs : List Char} (position : Nat), (∀ c ∈ cs, IsDigit c) →
    cs.length % 2 = 0 →
      ∃ b, decodePairs position (cs.flatMap String.utf8EncodeChar) = .ok b ∧
        encodeChars b = cs.map Char.toLower
  | [], _, _, _ => ⟨[], rfl, rfl⟩
  | [_], _, _, heven => absurd heven Nat.one_ne_zero
  | high :: low :: cs, position, hdigits, heven => by
    simp only [List.forall_mem_cons] at hdigits
    obtain ⟨hhigh, hlow, hrest⟩ := hdigits
    obtain ⟨hbyte, h, hh, hvalue, hshown⟩ := hhigh.exists_value
    obtain ⟨hbyte', l, hl, hvalue', hshown'⟩ := hlow.exists_value
    have hhalf : cs.length % 2 = 0 := by
      simp only [List.length_cons] at heven
      omega
    obtain ⟨tail, htail, hback⟩ := exists_decodePairs (position + 2) hrest hhalf
    refine ⟨UInt8.ofNat (16 * h + l) :: tail, ?_, ?_⟩
    · rw [List.flatMap_cons, List.flatMap_cons, hbyte, hbyte']
      exact decodePairs_pair hvalue hvalue' htail
    · rw [encodeChars_cons hh hl, hshown, hshown', hback]
      rfl

theorem digit_eq_ok {position v : Nat} {b : UInt8} (h : digit position b = .ok v) :
    (digitValue? b).isSome := by
  unfold digit at h
  cases hv : digitValue? b with
  | some v' => rfl
  | none =>
    rw [hv] at h
    cases h

theorem isSome_of_decodePairs : ∀ {position : Nat} {digits b : Bytes},
    decodePairs position digits = .ok b → ∀ x ∈ digits, (digitValue? x).isSome
  | _, [], _, _ => fun _ hx => absurd hx List.not_mem_nil
  | _, [_], _, h => nomatch h
  | position, high :: low :: rest, b, h => by
    cases hhigh : digit position high with
    | error e =>
      rw [decodePairs, hhigh] at h
      cases h
    | ok v =>
      cases hlow : digit (position + 1) low with
      | error e =>
        rw [decodePairs, hhigh, hlow] at h
        cases h
      | ok w =>
        cases htail : decodePairs (position + 2) rest with
        | error e =>
          rw [decodePairs, hhigh, hlow, htail] at h
          cases h
        | ok tail =>
          simp only [List.forall_mem_cons]
          exact ⟨digit_eq_ok hhigh, digit_eq_ok hlow, isSome_of_decodePairs htail⟩

/-- Bytes that are read as a string are digits, all of them. -/
theorem isSome_of_decodeBytes {digits b : Bytes} (h : decodeBytes digits = .ok b) :
    ∀ x ∈ digits, (digitValue? x).isSome := by
  unfold decodeBytes at h
  by_cases hodd : digits.length % 2 = 1
  · rw [if_pos hodd] at h
    cases h
  · rw [if_neg hodd] at h
    exact isSome_of_decodePairs h

theorem length_encodeChars (b : Bytes) : (encodeChars b).length = 2 * b.length := by
  induction b with
  | nil => rfl
  | cons x b ih =>
    rw [encodeChars, List.flatMap_cons, ← encodeChars, List.length_append, ih, List.length_cons]
    simp only [List.length_cons, List.length_nil]
    omega

theorem encodeChars_replicate_zero (n : Nat) :
    encodeChars (List.replicate n 0) = List.replicate (2 * n) '0' := by
  induction n with
  | zero => rfl
  | succ n ih =>
    rw [List.replicate_succ, encodeChars, List.flatMap_cons, ← encodeChars, ih]
    rfl

/-! ## Texts of digits -/

theorem length_flatMap_utf8EncodeChar {cs : List Char} (h : ∀ c ∈ cs, IsDigit c) :
    (cs.flatMap String.utf8EncodeChar).length = cs.length := by
  induction cs with
  | nil => rfl
  | cons c cs ih =>
    rw [List.forall_mem_cons] at h
    rw [List.flatMap_cons, h.1.exists_value.1, List.length_append, ih h.2, List.length_cons]
    simp only [List.length_cons, List.length_nil]
    omega

theorem length_utf8 {s : String} (h : ∀ c ∈ s.toList, IsDigit c) :
    (Text.utf8 s).length = s.toList.length :=
  length_flatMap_utf8EncodeChar h

/-- A text whose bytes are digits has no other characters. -/
theorem isDigit_of_utf8 {s : String} (h : ∀ x ∈ Text.utf8 s, (digitValue? x).isSome) :
    ∀ c ∈ s.toList, IsDigit c := by
  intro c hc
  obtain ⟨b, more, hb⟩ := List.exists_cons_of_ne_nil (String.utf8EncodeChar_ne_nil (c := c))
  have hmem : b ∈ String.utf8EncodeChar c := by
    rw [hb]
    exact List.mem_cons_self
  exact isDigit_of_mem hmem (h b (List.mem_flatMap.mpr ⟨c, hc, hmem⟩))

end Hex

namespace Hash256

open Hex

/-- Digits with the high digit of their first byte. -/
def evened (cs : List Char) : List Char :=
  if cs.length % 2 = 1 then '0' :: cs else cs

theorem isDigit_evened {cs : List Char} (h : ∀ c ∈ cs, IsDigit c) : ∀ c ∈ evened cs, IsDigit c := by
  unfold evened
  split
  · exact List.forall_mem_cons.mpr ⟨by decide, h⟩
  · exact h

theorem length_evened (cs : List Char) :
    (evened cs).length % 2 = 0 ∧ (evened cs).length = cs.length + cs.length % 2 := by
  unfold evened
  split
  · rw [List.length_cons]
    omega
  · omega

theorem utf8_evened (cs : List Char) :
    (evened cs).flatMap String.utf8EncodeChar =
      if cs.length % 2 = 1 then 0x30 :: cs.flatMap String.utf8EncodeChar
      else cs.flatMap String.utf8EncodeChar := by
  unfold evened
  split
  · rfl
  · rfl

/-- Zeros in front of the bytes and in front of the digits are the same. -/
theorem encodeChars_padLeft {cs : List Char} {b : Bytes} (hlen : cs.length ≤ 64)
    (h : encodeChars b = (evened cs).map Char.toLower) :
    encodeChars (Bytes.padLeft 32 b) = (cs.map Char.toLower).leftpad 64 '0' := by
  have hb := congrArg List.length h
  rw [length_encodeChars, List.length_map, (length_evened cs).2] at hb
  rw [Bytes.padLeft, encodeChars, List.flatMap_append, ← encodeChars, ← encodeChars,
    encodeChars_replicate_zero, h, List.leftpad, List.length_map]
  by_cases hodd : cs.length % 2 = 1
  · have hpad : 64 - cs.length = 2 * (32 - b.length) + 1 := by omega
    rw [evened, if_pos hodd, List.map_cons, hpad, List.replicate_succ', List.append_assoc]
    rfl
  · have hpad : 64 - cs.length = 2 * (32 - b.length) := by omega
    rw [evened, if_neg hodd, hpad]

/-- Digits that are not too many are read, and shown again with zeros in front. -/
theorem exists_parse {s : String} (hlen : (Text.utf8 s).length ≤ 64)
    (h : ∀ c ∈ s.toList, IsDigit c) :
    ∃ x, parse s = .ok x ∧ x.display = s.toLower.leftpad 64 '0' := by
  have hsize := length_utf8 h
  rw [hsize] at hlen
  obtain ⟨b, hread, hshown⟩ := exists_decodePairs 0 (isDigit_evened h) (length_evened s.toList).1
  have hpadded := encodeChars_padLeft hlen hshown
  have hfull : (Bytes.padLeft 32 b).length = 32 := by
    have hdigits := congrArg List.length hpadded
    rw [length_encodeChars, List.length_leftpad, List.length_map] at hdigits
    omega
  have hdecode : decodeBytes ((evened s.toList).flatMap String.utf8EncodeChar) = .ok b := by
    rw [decodeBytes, length_flatMap_utf8EncodeChar (isDigit_evened h), if_neg, hread]
    rw [(length_evened s.toList).1]
    decide
  rw [utf8_evened, ← Text.utf8, ← hsize] at hdecode
  refine ⟨⟨(Bytes.padLeft 32 b).reverse, by rw [List.length_reverse, hfull]⟩, ?_, ?_⟩
  · simp only [parse, hsize, Nat.not_lt.mpr hlen, if_false]
    rw [← hsize, hdecode]
    exact dif_pos _
  · have hlower : s.toLower.toList = s.toList.map Char.toLower := String.toList_map
    rw [display, List.reverse_reverse, encode, hpadded, ← hlower]
    rfl

theorem isDigit_of_parse {s : String} {x : Hash256} (h : parse s = .ok x) :
    (Text.utf8 s).length ≤ 64 ∧ ∀ c ∈ s.toList, IsDigit c := by
  simp only [parse] at h
  by_cases hlen : 64 < (Text.utf8 s).length
  · rw [if_pos hlen] at h
    cases h
  rw [if_neg hlen] at h
  cases hdecode : decodeBytes
      (if (Text.utf8 s).length % 2 = 1 then 0x30 :: Text.utf8 s else Text.utf8 s) with
  | error e =>
    rw [hdecode] at h
    cases h
  | ok b =>
    have hdigits := isSome_of_decodeBytes hdecode
    refine ⟨Nat.not_lt.mp hlen, isDigit_of_utf8 fun y hy => hdigits y ?_⟩
    split
    · exact List.mem_cons_of_mem _ hy
    · exact hy

theorem ofJson?_toJson (x : Hash256) : ofJson? x.toJson = some x := by
  rw [ofJson?, toJson, JsonValue.asString_string, Option.bind_some, parse_display]
  rfl

/-- **Texts and identifiers**: what is shown of an identifier is read as it, also from its JSON
text; a text is read exactly when it is at most 64 bytes long and has no other characters than
digits, and then the same digits are shown, in lower case and with zeros in front. -/
theorem parse_exact :
    (∀ x : Hash256, parse x.display = .ok x ∧
        (JsonValue.parse x.toJson.compact).bind ofJson? = some x) ∧
      ∀ s : String,
        ((∃ x, parse s = .ok x) ↔ (Text.utf8 s).length ≤ 64 ∧ ∀ c ∈ s.toList, IsDigit c) ∧
        ∀ x, parse s = .ok x → x.display = s.toLower.leftpad 64 '0' := by
  refine ⟨fun x => ⟨parse_display x, ?_⟩, fun s => ⟨⟨?_, ?_⟩, ?_⟩⟩
  · rw [toJson, JsonValue.parse_compact (.string _), Option.bind_some, ← toJson, ofJson?_toJson]
  · rintro ⟨x, hx⟩
    exact isDigit_of_parse hx
  · rintro ⟨hlen, hdigits⟩
    obtain ⟨x, hx, -⟩ := exists_parse hlen hdigits
    exact ⟨x, hx⟩
  · intro x hx
    obtain ⟨hlen, hdigits⟩ := isDigit_of_parse hx
    obtain ⟨x', hx', hshown⟩ := exists_parse hlen hdigits
    rw [hx] at hx'
    cases hx'
    exact hshown

/-- The identifier that is asked for as `aBC`: its first bytes are the last digits of the text. -/
def sampleShort : Hash256 :=
  ⟨0xbc :: 0x0a :: List.replicate 30 0, by decide⟩

theorem parse_exact_sampleShort :
    (Text.utf8 "aBC").length ≤ 64 ∧ (∀ c ∈ "aBC".toList, IsDigit c) ∧
      parse "aBC" = .ok sampleShort ∧ sampleShort.display = "aBC".toLower.leftpad 64 '0' ∧
      parse sampleShort.display = .ok sampleShort := by
  have hread : parse "aBC" = .ok sampleShort := by decide +kernel
  obtain ⟨hiff, hshown⟩ := parse_exact.2 "aBC"
  obtain ⟨hlen, hdigits⟩ := hiff.mp ⟨sampleShort, hread⟩
  exact ⟨hlen, hdigits, hread, hshown sampleShort hread, (parse_exact.1 sampleShort).1⟩

end Hash256

end CashWallet
