import CashWallet.Proofs.Address.Checksum

/-!
# `CashWallet/Proofs/Address/Codec.lean` — a text and its address determine each other

Reading an address asks six questions in a row, and each of them has one answer that writing gives:

* the split at the last colon is undone by putting the colon back (`splitLast?_eq_some_iff`), since
  no letter of the alphabet is a colon;
* the letters and the groups of five bits are in bijection (`groups_eq_ok_iff`);
* the last eight groups are the completion of the rest (`Checksum.polymod_append_eq_zero_iff`);
* the rest is the filled form of version and hash (`Regroup.exact_eq_ok_iff`);
* a version byte stands for one kind (`ofData_eq_ok_iff`).

Put together, a text in one case is read as an address **exactly when it is the text of that
address** and the label is not empty (`decodeLower_eq_ok_iff`). Nothing is asked of the label: it
may hold colons, and characters outside ASCII.

Each question is settled by an `iff`, so that no step has to be gone through twice, once for reading
and once for writing. The cases of letters come last: a text that does not mix them is read as its
lower case is (`decode_eq_ok_iff`), and the label that comes out has no capitals. So of the
addresses with an empty label, or with capitals in it, none is read back from its text; of all
others every one is.
-/

set_option autoImplicit false

namespace CashWallet.Hash160

theorem ofBytes?_eq_some_iff {b : Bytes} {h : Hash160} :
    ofBytes? b = some h ↔ b = h.bytes := by
  unfold ofBytes?
  constructor
  · intro hb
    split at hb
    · cases hb; rfl
    · cases hb
  · rintro rfl
    rw [dif_pos h.length_bytes]

end CashWallet.Hash160

namespace CashWallet.CashAddress

open Regroup

/-! ## Letters -/

/-- The letters one by one, for evaluation. -/
theorem alphabet_eq : alphabet =
    ['q', 'p', 'z', 'r', 'y', '9', 'x', '8', 'g', 'f', '2', 't', 'v', 'd', 'w', '0',
      's', '3', 'j', 'n', '5', '4', 'k', 'h', 'c', 'e', '6', 'm', 'u', 'a', '7', 'l'] := by
  decide

theorem length_alphabet : alphabet.length = 32 := by
  rw [alphabet_eq]
  rfl

theorem nodup_alphabet : alphabet.Nodup := by
  rw [alphabet_eq]
  decide

theorem letter_eq_getElem {v : UInt8} (hv : v.toNat < alphabet.length) :
    letter v = alphabet[v.toNat] :=
  List.getD_eq_getElem _ _ hv

/-- A letter stands for the group whose letter it is. -/
theorem group_eq_ok_iff {c : Char} {v : UInt8} :
    group c = .ok v ↔ v.toNat < 32 ∧ c = letter v := by
  unfold group
  constructor
  · intro h
    cases hi : alphabet.idxOf? c with
    | none => rw [hi] at h; cases h
    | some i =>
      rw [hi] at h
      obtain ⟨hlt, hget, -⟩ := List.idxOf?_eq_some_iff.mp hi
      rw [length_alphabet] at hlt
      simp only [Except.ok.injEq] at h
      have hv : v.toNat = i := by
        rw [← h, UInt8.toNat_ofNat']
        omega
      refine ⟨by omega, ?_⟩
      rw [letter_eq_getElem (by rw [length_alphabet]; omega), ← hget]
      simp only [hv]
  · rintro ⟨hv, rfl⟩
    have hlt : v.toNat < alphabet.length := by rw [length_alphabet]; exact hv
    have hi : alphabet.idxOf? (letter v) = some v.toNat := by
      refine List.idxOf?_eq_some_iff.mpr ⟨hlt, (letter_eq_getElem hlt).symm, ?_⟩
      -- The letter stands at one place only.
      intro j hj hjv
      rw [letter_eq_getElem hlt] at hjv
      exact absurd ((List.Nodup.getElem_inj_iff nodup_alphabet).mp hjv) (by omega)
    rw [hi]
    simp only [UInt8.ofNat_toNat]

/-- **A row of letters stands for the one row of groups that it writes.** -/
theorem groups_eq_ok_iff {cs : List Char} {values : Bytes} :
    groups cs = .ok values ↔ Fits 5 values ∧ cs = values.map letter := by
  induction cs generalizing values with
  | nil =>
    constructor
    · intro h
      cases h
      exact ⟨by intro g hg; simp at hg, rfl⟩
    · rintro ⟨-, h⟩
      rw [List.map_eq_nil_iff.mp h.symm]
      rfl
  | cons c cs ih =>
    constructor
    · intro h
      rw [groups] at h
      cases hc : group c with
      | error e => rw [hc] at h; cases h
      | ok v =>
        cases hcs : groups cs with
        | error e => rw [hc, hcs] at h; cases h
        | ok vs =>
          rw [hc, hcs] at h
          cases h
          obtain ⟨hv, hletter⟩ := group_eq_ok_iff.mp hc
          obtain ⟨hvs, hletters⟩ := ih.mp hcs
          exact ⟨Fits.cons hv hvs, by rw [List.map_cons, ← hletter, ← hletters]⟩
    · rintro ⟨hfits, h⟩
      cases values with
      | nil => cases h
      | cons v vs =>
        rw [List.map_cons, List.cons.injEq] at h
        have hv : group c = .ok v := group_eq_ok_iff.mpr ⟨hfits.head, h.1⟩
        have hvs : groups cs = .ok vs := ih.mpr ⟨hfits.tail, h.2⟩
        rw [groups, hv, hvs]

theorem letter_mem_alphabet (v : UInt8) : letter v ∈ alphabet := by
  by_cases hv : v.toNat < alphabet.length
  · rw [letter_eq_getElem hv]
    exact List.getElem_mem hv
  · rw [letter, List.getD_eq_default _ _ (by omega), alphabet_eq]
    decide

theorem mem_alphabet_of_mem_map {values : Bytes} : ∀ c ∈ values.map letter, c ∈ alphabet := by
  intro c hc
  obtain ⟨v, -, rfl⟩ := List.mem_map.mp hc
  exact letter_mem_alphabet v

theorem colon_notMem {cs : List Char} (h : ∀ c ∈ cs, c ∈ alphabet) : ':' ∉ cs := by
  intro hmem
  have hcolon := h _ hmem
  rw [alphabet_eq] at hcolon
  exact absurd hcolon (by decide)

/-- The text of an address has no capitals behind its colon. -/
theorem isUpper_of_mem_alphabet {c : Char} (hc : c ∈ alphabet) : c.isUpper = false := by
  have h : alphabet.all (fun c => !c.isUpper) = true := by
    rw [alphabet_eq]
    decide
  simpa using List.all_eq_true.mp h _ hc

/-! ## The last colon -/

/-- **The cut at the last colon is undone by putting the colon back.** The payload is the part that
has none. -/
theorem splitLast?_eq_some_iff {cs label payload : List Char} :
    splitLast? cs = some (label, payload) ↔ cs = label ++ ':' :: payload ∧ ':' ∉ payload := by
  unfold splitLast?
  rw [List.span_eq_takeWhile_dropWhile]
  -- Seen from the end, the last colon is the first character that is one.
  constructor
  · intro h
    have hsplit : cs.reverse.takeWhile (· != ':') ++ cs.reverse.dropWhile (· != ':') = cs.reverse :=
      List.takeWhile_append_dropWhile
    cases hd : cs.reverse.dropWhile (· != ':') with
    | nil => rw [hd] at h; cases h
    | cons x before =>
      rw [hd] at h hsplit
      simp only [Option.some.injEq, Prod.mk.injEq] at h
      obtain ⟨rfl, rfl⟩ := h
      have hx : x = ':' := by
        have hne : cs.reverse.dropWhile (· != ':') ≠ [] := by rw [hd]; simp
        have := List.head_dropWhile_not (· != ':') hne
        simpa [hd] using this
      refine ⟨?_, ?_⟩
      · calc cs = cs.reverse.reverse := (List.reverse_reverse cs).symm
          _ = (cs.reverse.takeWhile (· != ':') ++ x :: before).reverse := by rw [hsplit]
          _ = before.reverse ++ ':' :: (cs.reverse.takeWhile (· != ':')).reverse := by simp [hx]
      · intro hmem
        have := List.mem_takeWhile_imp (List.mem_reverse.mp hmem)
        simp at this
  · rintro ⟨rfl, hpayload⟩
    have hall : ∀ c ∈ payload.reverse, (c != ':') = true := by
      intro c hc
      have : c ≠ ':' := fun h => hpayload (h ▸ List.mem_reverse.mp hc)
      simpa using this
    have hrev : (label ++ ':' :: payload).reverse = payload.reverse ++ ':' :: label.reverse := by
      simp
    rw [hrev, List.takeWhile_append_of_pos hall, List.dropWhile_append_of_pos hall]
    simp

/-! ## Version and hash -/

theorem kindOf_eq_ok_iff {version : UInt8} {kind : AddressKind} :
    kindOf version = .ok kind ↔ version = kind.version := by
  unfold kindOf
  constructor
  · intro h
    split at h
    · next h0 => cases h; exact h0
    · split at h
      · next h8 => cases h; exact h8
      · cases h
  · rintro rfl
    cases kind <;> rfl

/-- Version and hash are read as the one address that they write. -/
theorem ofData_eq_ok_iff {label : String} {data : Bytes} {a : CashAddress} :
    ofData label data = .ok a ↔ a.label = label ∧ data = a.kind.version :: a.hash.bytes := by
  unfold ofData
  constructor
  · intro h
    cases data with
    | nil => cases h
    | cons version hash =>
      simp only at h
      cases hh : Hash160.ofBytes? hash with
      | none => rw [hh] at h; cases h
      | some hash' =>
        cases hk : kindOf version with
        | error e => rw [hh, hk] at h; cases h
        | ok kind =>
          rw [hh, hk] at h
          cases h
          rw [Hash160.ofBytes?_eq_some_iff.mp hh, kindOf_eq_ok_iff.mp hk]
          exact ⟨rfl, rfl⟩
  · rintro ⟨rfl, rfl⟩
    have hh : Hash160.ofBytes? a.hash.bytes = some a.hash := Hash160.ofBytes?_eq_some_iff.mpr rfl
    have hk : kindOf a.kind.version = .ok a.kind := kindOf_eq_ok_iff.mpr rfl
    simp only [hh, hk]

/-! ## Groups -/

theorem isFilled_payloadGroups (a : CashAddress) :
    IsFilled 8 5 (a.kind.version :: a.hash.bytes) a.payloadGroups :=
  isFilled_padded (by decide) (by decide) (fits_eight _)

theorem payloadGroups_ne_nil (a : CashAddress) : a.payloadGroups ≠ [] := by
  intro h
  obtain ⟨-, -, k, -, hk⟩ := a.isFilled_payloadGroups
  have := congrArg List.length hk
  simp only [h, length_rowBits, List.length_append, List.length_cons, List.length_nil] at this
  omega

theorem fits_textGroups (a : CashAddress) : Fits 5 a.textGroups :=
  a.isFilled_payloadGroups.fits_target.append (Checksum.fits_completion _)

theorem checksumInput_append (label : String) (a b : Bytes) :
    checksumInput label (a ++ b) = checksumInput label a ++ b := by
  simp [checksumInput]

/-- The groups of a text pass the check. -/
theorem polymod_textGroups (a : CashAddress) :
    Checksum.polymod (checksumInput a.label a.textGroups) = 0 := by
  rw [textGroups, checksumInput_append]
  exact (Checksum.polymod_append_eq_zero_iff _ (Checksum.fits_completion _)
    (Checksum.length_completion _)).mpr rfl

theorem length_textGroups (a : CashAddress) : a.textGroups.length = a.payloadGroups.length + 8 := by
  rw [textGroups, List.length_append, Checksum.length_completion]

/-- The last eight groups of a row that passes the check complete what stands in front of them. -/
theorem drop_eq_completion {label : String} {values : Bytes} (hfits : Fits 5 values)
    (hlen : 8 ≤ values.length) (hsum : Checksum.polymod (checksumInput label values) = 0) :
    values.drop (values.length - 8) =
      Checksum.completion (checksumInput label (values.take (values.length - 8))) := by
  have hcut : values.take (values.length - 8) ++ values.drop (values.length - 8) = values :=
    List.take_append_drop _ _
  have hlast : (values.drop (values.length - 8)).length = 8 := by
    rw [List.length_drop]
    omega
  have hlastFits : Fits 5 (values.drop (values.length - 8)) :=
    fun g hg => hfits g (List.mem_of_mem_drop hg)
  rw [← Checksum.polymod_append_eq_zero_iff _ hlastFits hlast, ← checksumInput_append, hcut]
  exact hsum

/-- **The groups behind the colon are those of the address.** The completion is the one that the
label and the rest ask for, and the rest is what version and hash fill up to. -/
theorem ofGroups_eq_ok_iff {label : String} {values : Bytes} (hfits : Fits 5 values)
    {a : CashAddress} :
    ofGroups label values = .ok a ↔ a.label = label ∧ values = a.textGroups := by
  unfold ofGroups
  constructor
  · intro h
    split at h
    · cases h
    · next hlen =>
      split at h
      · cases h
      · next hsum =>
        cases hd : Regroup.exact 5 8 (values.take (values.length - 8)) with
        | error e => rw [hd] at h; cases h
        | ok data =>
          rw [hd] at h
          obtain ⟨hlabel, hdata⟩ := ofData_eq_ok_iff.mp h
          have hfront : values.take (values.length - 8) = a.payloadGroups :=
            ((exact_eq_ok_iff (by decide) (by decide) (by decide)).mp hd).unique_target (by decide)
              (hdata ▸ a.isFilled_payloadGroups)
          -- The sum is zero, and only one completion makes it so.
          have hback : values.drop (values.length - 8) =
              Checksum.completion (checksumInput label a.payloadGroups) := by
            rw [← hfront]
            exact drop_eq_completion hfits (by omega) (not_not.mp hsum)
          refine ⟨hlabel, ?_⟩
          rw [textGroups, hlabel, ← hback, ← hfront, List.take_append_drop]
  · rintro ⟨rfl, rfl⟩
    have hsize := a.length_textGroups
    have hpos : 0 < a.payloadGroups.length := List.length_pos_iff.mpr a.payloadGroups_ne_nil
    have hfront : a.textGroups.take (a.textGroups.length - 8) = a.payloadGroups := by
      rw [hsize, Nat.add_sub_cancel, textGroups, List.take_left]
    have hdata : Regroup.exact 5 8 a.payloadGroups = .ok (a.kind.version :: a.hash.bytes) :=
      (exact_eq_ok_iff (by decide) (by decide) (by decide)).mpr a.isFilled_payloadGroups
    rw [if_neg (by omega), if_neg (not_not.mpr a.polymod_textGroups), hfront, hdata]
    exact ofData_eq_ok_iff.mpr ⟨rfl, rfl⟩

/-! ## Texts -/

theorem toList_encode (a : CashAddress) :
    a.encode.toList = a.label.toList ++ ':' :: a.textGroups.map letter := by
  rw [encode, String.toList_ofList]

/-- **A text in one case is read as an address exactly when it is its text**, and the label is not
empty. -/
theorem decodeLower_eq_ok_iff {cs : List Char} {a : CashAddress} :
    decodeLower cs = .ok a ↔ a.label ≠ "" ∧ a.encode = String.ofList cs := by
  have htext : a.encode = String.ofList cs ↔
      cs = a.label.toList ++ ':' :: a.textGroups.map letter := by
    rw [← String.toList_inj, toList_encode, String.toList_ofList, eq_comm]
  rw [htext]
  unfold decodeLower
  constructor
  · intro h
    cases hs : splitLast? cs with
    | none => rw [hs] at h; cases h
    | some parts =>
      obtain ⟨label, payload⟩ := parts
      rw [hs] at h
      simp only at h
      split at h
      · cases h
      · next hlabel =>
        cases hg : groups payload with
        | error e => rw [hg] at h; cases h
        | ok values =>
          rw [hg] at h
          obtain ⟨hfits, hpayload⟩ := groups_eq_ok_iff.mp hg
          obtain ⟨ha, hvalues⟩ := (ofGroups_eq_ok_iff hfits).mp h
          have hlist : a.label.toList = label := by rw [ha, String.toList_ofList]
          refine ⟨?_, ?_⟩
          · intro hempty
            rw [hempty] at hlist
            exact hlabel (by rw [← hlist]; rfl)
          · rw [(splitLast?_eq_some_iff.mp hs).1, hpayload, hlist, hvalues]
  · rintro ⟨hlabel, rfl⟩
    -- No letter is a colon, so the text is cut at the one behind the label, whatever the label
    -- holds.
    have hcolon : ':' ∉ a.textGroups.map letter := colon_notMem mem_alphabet_of_mem_map
    have hs : splitLast? (a.label.toList ++ ':' :: a.textGroups.map letter) =
        some (a.label.toList, a.textGroups.map letter) :=
      splitLast?_eq_some_iff.mpr ⟨rfl, hcolon⟩
    have hne : ¬ a.label.toList.isEmpty = true := by
      rw [List.isEmpty_iff, String.toList_eq_nil_iff]
      exact hlabel
    have hg : groups (a.textGroups.map letter) = .ok a.textGroups :=
      groups_eq_ok_iff.mpr ⟨a.fits_textGroups, rfl⟩
    simp only [hs, hne, hg, String.ofList_toList]
    exact (ofGroups_eq_ok_iff a.fits_textGroups).mpr ⟨rfl, rfl⟩

/-! ## Cases -/

theorem toLower_eq_self {c : Char} (h : c.isUpper = false) : c.toLower = c := by
  unfold Char.toLower
  rw [dif_neg]
  simpa [Char.isUpper] using h

theorem map_toLower_eq_self {cs : List Char} (h : ∀ c ∈ cs, c.isUpper = false) :
    cs.map Char.toLower = cs := by
  conv => rhs; rw [← List.map_id cs]
  exact List.map_congr_left fun c hc => toLower_eq_self (h c hc)

theorem text_toLower_eq_self {text : String} (h : ∀ c ∈ text.toList, c.isUpper = false) :
    text.toLower = text := by
  rw [← String.toList_inj, String.toLower, String.toList_map, map_toLower_eq_self h]

theorem isMixedCase_iff {cs : List Char} :
    isMixedCase cs = true ↔ (∃ c ∈ cs, c.isLower) ∧ ∃ c ∈ cs, c.isUpper := by
  simp [isMixedCase]

theorem isUpper_of_mem_encode {a : CashAddress} (ha : ∀ c ∈ a.label.toList, c.isUpper = false) :
    ∀ c ∈ a.encode.toList, c.isUpper = false := by
  intro c hc
  rw [toList_encode, List.mem_append, List.mem_cons] at hc
  rcases hc with hc | rfl | hc
  · exact ha c hc
  · decide
  · exact isUpper_of_mem_alphabet (mem_alphabet_of_mem_map c hc)

theorem decode_eq_decodeLower {text : String} (h : ∀ c ∈ text.toList, c.isUpper = false) :
    decode text = decodeLower text.toList := by
  have hone : ¬ isMixedCase text.toList = true := by
    rw [isMixedCase_iff]
    rintro ⟨-, c, hc, hupper⟩
    rw [h c hc] at hupper
    cases hupper
  simp only [decode, hone, map_toLower_eq_self h]
  rfl

theorem decode_eq_ok_iff {text : String} {a : CashAddress} :
    decode text = .ok a ↔
      ¬ ((∃ c ∈ text.toList, c.isLower) ∧ ∃ c ∈ text.toList, c.isUpper) ∧ a.label ≠ "" ∧
        a.encode = text.toLower := by
  have hlower : text.toLower = String.ofList (text.toList.map Char.toLower) := by
    rw [String.toLower, ← String.toList_map, String.ofList_toList]
  rw [← isMixedCase_iff, hlower]
  simp only [decode]
  cases hm : isMixedCase text.toList with
  | true => simp
  | false => simp [decodeLower_eq_ok_iff]

/-- The text of an address is read as that address, if its label is not empty and free of
capitals. -/
theorem decode_encode {a : CashAddress} (hne : a.label ≠ "")
    (hlow : ∀ c ∈ a.label.toList, c.isUpper = false) : decode a.encode = .ok a := by
  have hupper := isUpper_of_mem_encode hlow
  refine decode_eq_ok_iff.mpr ⟨?_, hne, ?_⟩
  · rintro ⟨-, c, hc, hcu⟩
    rw [hupper c hc] at hcu
    cases hcu
  · exact (text_toLower_eq_self hupper).symm

/-- **Texts and addresses determine each other.** A text is read as an address exactly when it does
not mix cases and is, in lower case, the text of that address, which has a label. So every address
with a label free of capitals is read back from its text, and two texts without capitals that are
read as one address are the same. -/
theorem decode_exact :
    (∀ (text : String) (a : CashAddress), decode text = .ok a ↔
      ¬ ((∃ c ∈ text.toList, c.isLower) ∧ ∃ c ∈ text.toList, c.isUpper) ∧ a.label ≠ "" ∧
        a.encode = text.toLower) ∧
    (∀ a : CashAddress, a.label ≠ "" → (∀ c ∈ a.label.toList, c.isUpper = false) →
      decode a.encode = .ok a) ∧
    (∀ (s t : String) (a : CashAddress), (∀ c ∈ s.toList, c.isUpper = false) →
      (∀ c ∈ t.toList, c.isUpper = false) → decode s = .ok a → decode t = .ok a → s = t) := by
  refine ⟨fun text a => decode_eq_ok_iff, fun a hne hlow => decode_encode hne hlow, ?_⟩
  intro s t a hs ht hsa hta
  -- Both are the text of the address, since they are their own lower case.
  rw [← text_toLower_eq_self hs, ← text_toLower_eq_self ht, ← (decode_eq_ok_iff.mp hsa).2.2,
    ← (decode_eq_ok_iff.mp hta).2.2]

/-- An address that has been published together with its hash. -/
def published : CashAddress :=
  ⟨"bitcoincash", .pubKeyHash,
    ⟨[0x76, 0xa0, 0x40, 0x53, 0xbd, 0xa0, 0xa8, 0x8b, 0xda, 0x51,
      0x77, 0xb8, 0x6a, 0x15, 0xc3, 0xb2, 0x9f, 0x55, 0x98, 0x73], rfl⟩⟩

/-- The published address is read from its text in capitals, and back from its own text. -/
theorem decode_exact_published :
    decode "BITCOINCASH:QPM2QSZNHKS23Z7629MMS6S4CWEF74VCWVY22GDX6A" = .ok published ∧
      decode published.encode = .ok published := by
  refine ⟨(decode_exact.1 _ _).mpr ⟨?_, by decide, ?_⟩, decode_exact.2.1 _ (by decide) ?_⟩
  · rw [← isMixedCase_iff]
    decide +kernel
  · decide +kernel
  · simp [published]

end CashWallet.CashAddress
