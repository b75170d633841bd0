import CashWallet.Proofs.Address.Codec

/-!
# `CashWallet/Proofs/Address/Burst.lean` — bursts of errors in an address are found

The checksum is made for errors that stand close together. **Whatever is changed within eight
letters of an address, it is not read any more** (`CashAddress.bursts_detected`), and two addresses
under one label whose payloads differ so closely do not end in the same eight letters.

The argument has two halves. Up to eight groups are not reduced but added (`run_eq_xor_number`), so
every choice of them leads to another state of the checksum. And a difference of two states is never
lost again, however many groups follow: what a step shifts out can be told from the lowest five bits
of what it adds back (`feedback_mod`), so **a step with a given group can be undone**
(`step_injective`). Together they say that rows which differ so closely never lead to one state
(`run_ne_of_differWithin`).

What "within eight letters" means is `DifferWithin`: two rows of one length are equal outside of a
window. It is stated by places, which is what a reader of the statement wants, and used by cutting
the rows at the window (`DifferWithin.exists_window`), which is what the steps of the checksum need.
It goes over from letters to groups, because letters and groups are in bijection, and from bits to
groups, because a window of bits touches few groups (`Regroup.differWithin_of_rowBits`). So a change
of 36 bits in a hash, wherever it begins, is found as well as one of eight letters.

What is changed in the label is another matter, for which see
`CashWallet/Proofs/Address/Label.lean`.
-/

set_option autoImplicit false

namespace CashWallet

/-! ## Differences that stand close together -/

/-- Two rows of one length that differ only within so many places in a row. -/
structure DifferWithin {α : Type} (width : Nat) (a b : List α) : Prop where
  length_eq : a.length = b.length
  within : ∃ start, ∀ i, a[i]? ≠ b[i]? → start ≤ i ∧ i < start + width

namespace DifferWithin

variable {α β : Type} {width : Nat} {a b : List α}

/-- Rows that differ within a window are equal in front of it and behind it. -/
theorem exists_window (h : DifferWithin width a b) :
    ∃ p u v q, a = p ++ (u ++ q) ∧ b = p ++ (v ++ q) ∧ u.length = v.length ∧
      u.length ≤ width := by
  obtain ⟨hlen, start, hwithin⟩ := h
  -- In front of the window and behind it a difference would lie outside of the window.
  have hfront : a.take start = b.take start := by
    refine List.ext_getElem? fun i => ?_
    rw [List.getElem?_take, List.getElem?_take]
    by_cases hi : i < start
    · rw [if_pos hi, if_pos hi]
      by_contra hne
      exact absurd (hwithin i hne).1 (Nat.not_le_of_lt hi)
    · rw [if_neg hi, if_neg hi]
  have hback : a.drop (start + width) = b.drop (start + width) := by
    refine List.ext_getElem? fun i => ?_
    rw [List.getElem?_drop, List.getElem?_drop]
    by_contra hne
    have hlt := (hwithin _ hne).2
    omega
  have hcut (c : List α) :
      c = c.take start ++ ((c.drop start).take width ++ c.drop (start + width)) := by
    rw [← List.drop_drop, List.take_append_drop, List.take_append_drop]
  refine ⟨a.take start, (a.drop start).take width, (b.drop start).take width,
    a.drop (start + width), hcut a, ?_, ?_, List.length_take_le _ _⟩
  · rw [hfront, hback]
    exact hcut b
  · rw [List.length_take, List.length_take, List.length_drop, List.length_drop, hlen]

theorem of_window {u v : List α} (p q : List α) (hlen : u.length = v.length)
    (hle : u.length ≤ width) : DifferWithin width (p ++ (u ++ q)) (p ++ (v ++ q)) := by
  refine ⟨by simp [hlen], p.length, fun i hne => ?_⟩
  constructor
  · by_contra hlt
    have hlt := Nat.lt_of_not_le hlt
    rw [List.getElem?_append_left hlt, List.getElem?_append_left hlt] at hne
    exact hne rfl
  · by_contra hge
    have hge := Nat.le_of_not_lt hge
    have hp : p.length ≤ i := by omega
    have hu : u.length ≤ i - p.length := by omega
    rw [List.getElem?_append_right hp, List.getElem?_append_right hp,
      List.getElem?_append_right hu, List.getElem?_append_right (hlen ▸ hu), hlen] at hne
    exact hne rfl

theorem surround (h : DifferWithin width a b) (p q : List α) :
    DifferWithin width (p ++ (a ++ q)) (p ++ (b ++ q)) := by
  obtain ⟨p', u, v, q', rfl, rfl, hlen, hle⟩ := h.exists_window
  have hwindow := of_window (p ++ p') (q' ++ q) hlen hle
  simpa only [List.append_assoc] using hwindow

/-- What differs closely after a map that keeps things apart differs as closely before it. -/
theorem of_map {f : β → α} {x y : List β} (hinj : ∀ s ∈ x, ∀ t ∈ y, f s = f t → s = t)
    (h : DifferWithin width (x.map f) (y.map f)) : DifferWithin width x y := by
  obtain ⟨hlen, start, hwithin⟩ := h
  have hsize : x.length = y.length := by simpa using hlen
  refine ⟨hsize, start, fun i hne => hwithin i fun heq => hne ?_⟩
  rw [List.getElem?_map, List.getElem?_map] at heq
  by_cases hi : i < x.length
  · have hi' : i < y.length := hsize ▸ hi
    rw [List.getElem?_eq_getElem hi, List.getElem?_eq_getElem hi'] at heq ⊢
    have hsame := hinj _ (List.getElem_mem hi) _ (List.getElem_mem hi') (Option.some.inj heq)
    rw [hsame]
  · rw [List.getElem?_eq_none (Nat.le_of_not_lt hi),
      List.getElem?_eq_none (hsize ▸ Nat.le_of_not_lt hi)]

end DifferWithin

/-! ## A step can be undone -/

namespace Checksum

open Regroup

/-- What is shifted out can be told from the lowest bits of what is added back for it. -/
theorem feedback_mod : ∀ out < 32, feedback out % 32 = out := by
  decide

theorem eq_zero_of_step {s : Nat} (hs : s < stateBound) (h : step s 0 = 0) : s = 0 := by
  have hout : s >>> 35 < 32 := by
    rw [Nat.shiftRight_eq_div_pow]
    exact Nat.div_lt_of_lt_mul hs
  rw [step, Nat.xor_zero, Nat.xor_eq_zero_iff, Nat.shiftLeft_eq] at h
  have hzero : s >>> 35 = 0 := by
    rw [← feedback_mod _ hout, ← h]
    exact Nat.mul_mod_left _ _
  have hlow : s &&& 0x7ffffffff = s % 2 ^ 35 := Nat.and_two_pow_sub_one_eq_mod s 35
  rw [hzero, feedback_zero, hlow] at h
  rw [Nat.shiftRight_eq_div_pow] at hzero
  omega

/-- **A step with a given group can be undone.** -/
theorem step_injective {s t g : Nat} (hs : s < stateBound) (ht : t < stateBound)
    (h : step s g = step t g) : s = t := by
  have hzero := step_xor s t g g
  rw [Nat.xor_self, h, Nat.xor_self] at hzero
  exact Nat.xor_eq_zero_iff.mp (eq_zero_of_step (xor_lt_stateBound hs ht) hzero)

/-- Two states that a row of groups leads to the same state were the same. -/
theorem run_injective {groups : Bytes} : ∀ {s t : Nat}, s < stateBound → t < stateBound →
    run s groups = run t groups → s = t := by
  induction groups with
  | nil =>
    intro s t _ _ h
    exact h
  | cons g groups ih =>
    intro s t hs ht h
    exact step_injective hs ht (ih (step_lt s g) (step_lt t g) h)

/-- **Two rows that differ within eight groups lead to different states**, whatever stands in front
of the difference and behind it. -/
theorem run_ne_of_differWithin {s : Nat} (hs : s < stateBound) {a b : Bytes} (ha : Fits 5 a)
    (hb : Fits 5 b) (hne : a ≠ b) (h : DifferWithin 8 a b) : run s a ≠ run s b := by
  obtain ⟨p, u, v, q, rfl, rfl, hlen, hle⟩ := h.exists_window
  intro hrun
  simp only [run_append] at hrun
  have hstart : run s p < stateBound := run_lt hs p
  have hu : Fits 5 u := fun g hg => ha g (by simp [hg])
  have hv : Fits 5 v := fun g hg => hb g (by simp [hg])
  have hwindow := run_injective (run_lt hstart u) (run_lt hstart v) hrun
  rw [run_eq_xor_number _ hu hle, run_eq_xor_number _ hv (hlen ▸ hle), hlen,
    Nat.xor_right_inj] at hwindow
  obtain ⟨-, rfl⟩ := eq_of_number_eq hu hv hlen hwindow
  exact hne rfl

theorem polymod_ne_of_differWithin {a b : Bytes} (ha : Fits 5 a) (hb : Fits 5 b) (hne : a ≠ b)
    (h : DifferWithin 8 a b) (front : Bytes) : polymod (front ++ a) ≠ polymod (front ++ b) := by
  intro hsum
  rw [polymod, polymod, Nat.xor_left_inj, run_append, run_append] at hsum
  exact run_ne_of_differWithin (run_lt (by decide) front) ha hb hne h hsum

/-- Rows that differ within eight groups are completed by other groups. -/
theorem completion_ne_of_differWithin {a b : Bytes} (ha : Fits 5 a) (hb : Fits 5 b) (hne : a ≠ b)
    (h : DifferWithin 8 a b) (front : Bytes) :
    completion (front ++ a) ≠ completion (front ++ b) := by
  intro hsame
  have hzeros : Fits 5 (List.replicate 8 0) := by
    intro g hg
    rw [List.eq_of_mem_replicate hg]
    decide
  have hsum := congrArg (number 0) hsame
  rw [completion, completion, number_groupsOf (polymod_lt _), number_groupsOf (polymod_lt _),
    List.append_assoc, List.append_assoc] at hsum
  refine polymod_ne_of_differWithin (ha.append hzeros) (hb.append hzeros) ?_ ?_ front hsum
  · rwa [Ne, List.append_left_inj]
  · exact h.surround [] (List.replicate 8 0)

end Checksum

/-! ## Bits and groups -/

namespace Regroup

theorem rowBits_cons (width : Nat) (g : UInt8) (groups : Bytes) :
    rowBits width (g :: groups) = bitsOf width g.toNat ++ rowBits width groups :=
  rfl

/-- A group is told by its bits, wherever it stands in a row. -/
theorem getElem?_eq_of_rowBits {width : Nat} {a : Bytes} :
    ∀ {b : Bytes} {i : Nat}, Fits width a → Fits width b → a.length = b.length →
      (∀ r < width, (rowBits width a)[width * i + r]? = (rowBits width b)[width * i + r]?) →
      a[i]? = b[i]? := by
  induction a with
  | nil =>
    intro b i _ _ hlen _
    rw [List.eq_nil_of_length_eq_zero hlen.symm]
  | cons x a ih =>
    intro b i ha hb hlen h
    cases b with
    | nil => cases hlen
    | cons y b =>
      cases i with
      | zero =>
        have hbits : bitsOf width x.toNat = bitsOf width y.toNat := by
          refine List.ext_getElem? fun r => ?_
          by_cases hr : r < width
          · have hsame := h r hr
            rwa [Nat.mul_zero, Nat.zero_add, rowBits_cons, rowBits_cons,
              List.getElem?_append_left (by rwa [length_bitsOf]),
              List.getElem?_append_left (by rwa [length_bitsOf])] at hsame
          · rw [List.getElem?_eq_none (by rw [length_bitsOf]; omega),
              List.getElem?_eq_none (by rw [length_bitsOf]; omega)]
        have hxy : x = y := UInt8.toNat_inj.1 (eq_of_bitsOf_eq ha.head hb.head hbits)
        rw [List.getElem?_cons_zero, List.getElem?_cons_zero, hxy]
      | succ i =>
        rw [List.getElem?_cons_succ, List.getElem?_cons_succ]
        refine ih ha.tail hb.tail (Nat.succ.inj hlen) fun r hr => ?_
        -- The bits of the first group stand in front of all the others.
        have hsame := h r hr
        have hplace : width * (i + 1) + r = width + (width * i + r) := by
          rw [Nat.mul_succ]
          omega
        rwa [hplace, rowBits_cons, rowBits_cons, List.getElem?_append_right (by simp),
          List.getElem?_append_right (by simp), length_bitsOf, length_bitsOf,
          Nat.add_sub_cancel_left] at hsame

/-- Bits that differ within one more than `n` groups have stand in at most `n + 1` groups. -/
theorem differWithin_of_rowBits (width n : Nat) {a b : Bytes} (ha : Fits width a)
    (hb : Fits width b) (hlen : a.length = b.length)
    (h : DifferWithin (width * n + 1) (rowBits width a) (rowBits width b)) :
    DifferWithin (n + 1) a b := by
  obtain ⟨-, start, hwithin⟩ := h
  -- The window of groups begins with the group in which the window of bits begins.
  refine ⟨hlen, start / width, fun i hne => ?_⟩
  have hbit : ∃ r < width,
      (rowBits width a)[width * i + r]? ≠ (rowBits width b)[width * i + r]? := by
    by_contra hnone
    refine hne (getElem?_eq_of_rowBits ha hb hlen fun r hr => ?_)
    by_contra hdiffer
    exact hnone ⟨r, hr, hdiffer⟩
  obtain ⟨r, hr, hdiffer⟩ := hbit
  obtain ⟨hstart, hend⟩ := hwithin _ hdiffer
  constructor
  · refine Nat.lt_succ_iff.mp (Nat.div_lt_of_lt_mul ?_)
    rw [Nat.mul_succ]
    omega
  · refine Nat.lt_of_mul_lt_mul_left (a := width) ?_
    have hsplit := Nat.div_add_mod start width
    have hmod := Nat.mod_lt start (Nat.zero_lt_of_lt hr)
    rw [Nat.mul_add, Nat.mul_succ]
    omega

end Regroup

/-! ## Addresses -/

namespace CashAddress

open Regroup

/-- Two groups with one letter are one group. -/
theorem letter_injective {v w : UInt8} (hv : v.toNat < 32) (hw : w.toNat < 32)
    (h : letter v = letter w) : v = w := by
  have hsame : group (letter v) = .ok w := group_eq_ok_iff.mpr ⟨hw, h⟩
  rw [group_eq_ok_iff.mpr ⟨hv, rfl⟩] at hsame
  exact Except.ok.inj hsame

theorem eq_of_map_letter_eq {v w : Bytes} (hv : Fits 5 v) (hw : Fits 5 w)
    (h : v.map letter = w.map letter) : v = w := by
  have hsame : groups (v.map letter) = .ok w := groups_eq_ok_iff.mpr ⟨hw, h⟩
  rw [groups_eq_ok_iff.mpr ⟨hv, rfl⟩] at hsame
  exact Except.ok.inj hsame

/-- A row of letters of the alphabet writes some groups. -/
theorem exists_groups {cs : List Char} (h : ∀ c ∈ cs, c ∈ alphabet) :
    ∃ values, Fits 5 values ∧ cs = values.map letter := by
  induction cs with
  | nil => exact ⟨[], List.forall_mem_nil _, rfl⟩
  | cons c cs ih =>
    obtain ⟨values, hfits, rfl⟩ := ih fun c' hc' => h c' (List.mem_cons_of_mem c hc')
    obtain ⟨i, hi, rfl⟩ := List.getElem_of_mem (h c List.mem_cons_self)
    have hi32 : i < 32 := length_alphabet ▸ hi
    have hvalue : (UInt8.ofNat i).toNat = i := by
      rw [UInt8.toNat_ofNat']
      omega
    refine ⟨UInt8.ofNat i :: values, hfits.cons (by rw [hvalue]; exact hi32), ?_⟩
    rw [List.map_cons, letter_eq_getElem (by rwa [hvalue])]
    simp only [hvalue]

theorem ofGroups_eq_invalidChecksum {label : String} {values : Bytes} (hlen : 8 < values.length)
    (hsum : Checksum.polymod (checksumInput label values) ≠ 0) :
    ofGroups label values = .error .invalidChecksum := by
  rw [ofGroups, if_neg (Nat.not_le_of_lt hlen), if_pos hsum]

/-! ### Texts -/

/-- The label and the letters of a text that is read as an address. -/
theorem parts_of_decodeLower {label payload : List Char} {a : CashAddress}
    (h : decodeLower (label ++ ':' :: payload) = .ok a) (hcolon : ':' ∉ payload) :
    label ≠ [] ∧ a.label = String.ofList label ∧ payload = a.textGroups.map letter := by
  obtain ⟨hlabel, htext⟩ := decodeLower_eq_ok_iff.mp h
  have htext := congrArg String.toList htext
  rw [toList_encode, String.toList_ofList] at htext
  have hletters : ':' ∉ a.textGroups.map letter := colon_notMem mem_alphabet_of_mem_map
  -- There is one last colon, so both ways to cut the text are the same.
  have hsplit : splitLast? (label ++ ':' :: payload) = some (label, payload) :=
    splitLast?_eq_some_iff.mpr ⟨rfl, hcolon⟩
  rw [splitLast?_eq_some_iff.mpr ⟨htext.symm, hletters⟩] at hsplit
  cases hsplit
  refine ⟨fun hempty => hlabel ?_, String.ofList_toList.symm, rfl⟩
  rw [← String.ofList_toList (s := a.label), hempty]

/-- **A payload in which letters were replaced within eight places is refused for its checksum.** -/
theorem decodeLower_of_differWithin {label payload payload' : List Char} {a : CashAddress}
    (ha : decodeLower (label ++ ':' :: payload) = .ok a) (hcolon : ':' ∉ payload)
    (hletters : ∀ c ∈ payload', c ∈ alphabet) (hne : payload ≠ payload')
    (h : DifferWithin 8 payload payload') :
    decodeLower (label ++ ':' :: payload') = .error .invalidChecksum := by
  obtain ⟨hlabel, halabel, rfl⟩ := parts_of_decodeLower ha hcolon
  obtain ⟨values, hvalues, rfl⟩ := exists_groups hletters
  have hgroups : DifferWithin 8 a.textGroups values := h.of_map fun v hv w hw =>
    letter_injective (a.fits_textGroups v hv) (hvalues w hw)
  have hchanged : a.textGroups ≠ values := fun hsame => hne (congrArg _ hsame)
  have hlength : 8 < values.length := by
    rw [← hgroups.length_eq, length_textGroups]
    exact Nat.lt_add_of_pos_left (List.length_pos_iff.mpr a.payloadGroups_ne_nil)
  -- The sum of the old groups is zero, and a burst changes it.
  have hsum : Checksum.polymod (checksumInput a.label values) ≠ 0 := by
    have hdiffer := Checksum.polymod_ne_of_differWithin a.fits_textGroups hvalues hchanged hgroups
      (checksumInput a.label [])
    rw [← checksumInput_append, ← checksumInput_append, List.nil_append, List.nil_append,
      polymod_textGroups] at hdiffer
    exact hdiffer.symm
  have hlast : splitLast? (label ++ ':' :: values.map letter) = some (label, values.map letter) :=
    splitLast?_eq_some_iff.mpr ⟨rfl, colon_notMem hletters⟩
  have hread : groups (values.map letter) = .ok values := groups_eq_ok_iff.mpr ⟨hvalues, rfl⟩
  rw [decodeLower, hlast]
  simp only [List.isEmpty_iff, hlabel, if_false, hread]
  rw [← halabel]
  exact ofGroups_eq_invalidChecksum hlength hsum

/-! ### Payloads and endings -/

/-- The groups of a payload are the bits of version and hash, and two zeros. -/
theorem rowBits_payloadGroups (a : CashAddress) :
    rowBits 5 a.payloadGroups =
      bitsOf 8 a.kind.version.toNat ++ (rowBits 8 a.hash.bytes ++ [false, false]) := by
  obtain ⟨-, -, k, hk, hbits⟩ := a.isFilled_payloadGroups
  have hlen := congrArg List.length hbits
  simp only [length_rowBits, List.length_append, List.length_replicate, List.length_cons,
    a.hash.length_bytes] at hlen
  have hk : k = 2 := by omega
  rw [hbits, hk, rowBits_cons, List.append_assoc]
  rfl

theorem length_payloadGroups (a : CashAddress) : a.payloadGroups.length = 34 := by
  have hlen := congrArg List.length a.rowBits_payloadGroups
  simp only [length_rowBits, List.length_append, length_bitsOf, List.length_cons, List.length_nil,
    a.hash.length_bytes] at hlen
  omega

/-- Hashes that differ within 36 bits make payloads that differ within eight groups. -/
theorem differWithin_payloadGroups {a b : CashAddress} (hkind : a.kind = b.kind)
    (h : DifferWithin 36 (rowBits 8 a.hash.bytes) (rowBits 8 b.hash.bytes)) :
    DifferWithin 8 a.payloadGroups b.payloadGroups := by
  refine differWithin_of_rowBits 5 7 a.isFilled_payloadGroups.fits_target
    b.isFilled_payloadGroups.fits_target ?_ ?_
  · rw [length_payloadGroups, length_payloadGroups]
  · rw [rowBits_payloadGroups, rowBits_payloadGroups, hkind]
    exact h.surround _ _

theorem payloadGroups_ne {a b : CashAddress} (h : a.hash.bytes ≠ b.hash.bytes) :
    a.payloadGroups ≠ b.payloadGroups := by
  intro hsame
  have hbits := congrArg (rowBits 5) hsame
  rw [rowBits_payloadGroups, rowBits_payloadGroups] at hbits
  obtain ⟨-, hbits⟩ := List.append_inj hbits (by simp)
  have hzeros : [false, false].length < 8 := by decide
  obtain ⟨hbytes, -⟩ := eq_of_rowBits_append_eq (fits_eight _) (fits_eight _) hzeros hzeros hbits
  exact h hbytes

theorem rtake_encode (a : CashAddress) :
    a.encode.toList.rtake 8 =
      (Checksum.completion (checksumInput a.label a.payloadGroups)).map letter := by
  have hlen : ((Checksum.completion (checksumInput a.label a.payloadGroups)).map letter).length =
      8 := by
    rw [List.length_map, Checksum.length_completion]
  rw [toList_encode, textGroups, List.map_append, ← List.cons_append, ← List.append_assoc,
    List.rtake, List.length_append, hlen, Nat.add_sub_cancel, List.drop_left]

/-- **Payloads that differ within eight groups have other endings.** -/
theorem rtake_ne_of_differWithin {a b : CashAddress} (hlabel : a.label = b.label)
    (hne : a.payloadGroups ≠ b.payloadGroups) (h : DifferWithin 8 a.payloadGroups b.payloadGroups) :
    a.encode.toList.rtake 8 ≠ b.encode.toList.rtake 8 := by
  rw [rtake_encode, rtake_encode, hlabel]
  intro hsame
  have hgroups : Checksum.completion (checksumInput b.label a.payloadGroups) =
      Checksum.completion (checksumInput b.label b.payloadGroups) :=
    eq_of_map_letter_eq (Checksum.fits_completion _) (Checksum.fits_completion _) hsame
  have hdiffer := Checksum.completion_ne_of_differWithin a.isFilled_payloadGroups.fits_target
    b.isFilled_payloadGroups.fits_target hne h (checksumInput b.label [])
  rw [← checksumInput_append, ← checksumInput_append, List.nil_append, List.nil_append] at hdiffer
  exact hdiffer hgroups

/-! ### Both -/

/-- **Bursts of errors are found.** Let a text without capitals be read as an address. If some of
the letters behind its last colon are replaced by other letters of the alphabet, all within eight
places, then the text is refused for its checksum. And let two addresses have one label. If their
payloads, which are 34 groups, differ, and only within eight groups, then the last eight letters of
their texts differ; this is so for addresses of one kind whose hashes differ in one bit, or within
36 bits. -/
theorem bursts_detected :
    (∀ (text text' : String) (a : CashAddress) (label payload payload' : List Char),
      (∀ c ∈ text.toList, c.isUpper = false) → decode text = .ok a →
      text.toList = label ++ ':' :: payload → ':' ∉ payload →
      text'.toList = label ++ ':' :: payload' → text' ≠ text →
      (∀ c ∈ payload', c ∈ payload ∨ c ∈ alphabet) → DifferWithin 8 payload payload' →
      decode text' = .error .invalidChecksum) ∧
    (∀ a b : CashAddress, a.label = b.label → a.payloadGroups ≠ b.payloadGroups →
      DifferWithin 8 a.payloadGroups b.payloadGroups →
      a.encode.toList.rtake 8 ≠ b.encode.toList.rtake 8) ∧
    (∀ a : CashAddress, a.payloadGroups.length = 34) ∧
    ∀ a b : CashAddress, a.label = b.label → a.kind = b.kind → a.hash.bytes ≠ b.hash.bytes →
      DifferWithin 36 (rowBits 8 a.hash.bytes) (rowBits 8 b.hash.bytes) →
      a.payloadGroups ≠ b.payloadGroups ∧ DifferWithin 8 a.payloadGroups b.payloadGroups ∧
        a.encode.toList.rtake 8 ≠ b.encode.toList.rtake 8 := by
  refine ⟨?_, fun a b => rtake_ne_of_differWithin, length_payloadGroups, ?_⟩
  · intro text text' a label payload payload' hlow ha htext hcolon htext' hne hletters h
    rw [decode_eq_decodeLower hlow, htext] at ha
    obtain ⟨-, -, hpayload⟩ := parts_of_decodeLower ha hcolon
    have halphabet : ∀ c ∈ payload, c ∈ alphabet := by
      rw [hpayload]
      exact mem_alphabet_of_mem_map
    have halphabet' : ∀ c ∈ payload', c ∈ alphabet := fun c hc =>
      (hletters c hc).elim (halphabet c) id
    have hlow' : ∀ c ∈ text'.toList, c.isUpper = false := by
      intro c hc
      rw [htext', ← List.singleton_append, ← List.append_assoc, List.mem_append] at hc
      obtain hc | hc := hc
      · refine hlow c ?_
        rw [htext, ← List.singleton_append, ← List.append_assoc]
        exact List.mem_append_left _ hc
      · exact isUpper_of_mem_alphabet (halphabet' c hc)
    rw [decode_eq_decodeLower hlow', htext']
    refine decodeLower_of_differWithin ha hcolon halphabet' (fun hsame => hne ?_) h
    rw [← String.toList_inj, htext, htext', hsame]
  · intro a b hlabel hkind hhash hbits
    have hne := payloadGroups_ne hhash
    have hwithin := differWithin_payloadGroups hkind hbits
    exact ⟨hne, hwithin, rtake_ne_of_differWithin hlabel hne hwithin⟩

/-- The published address with the last bit of its hash turned. -/
def turned : CashAddress :=
  ⟨"bitcoincash", .pubKeyHash,
    ⟨[0x76, 0xa0, 0x40, 0x53, 0xbd, 0xa0, 0xa8, 0x8b, 0xda, 0x51,
      0x77, 0xb8, 0x6a, 0x15, 0xc3, 0xb2, 0x9f, 0x55, 0x98, 0x72], rfl⟩⟩

/-- The groups of its text with the first two exchanged. -/
def exchanged : Bytes :=
  1 :: 0 :: published.textGroups.drop 2

/-- With the first two letters of its payload exchanged the published address is refused, and with
another last bit of its hash it has another ending. -/
theorem bursts_detected_published :
    decode published.encode = .ok published ∧
      decode (String.ofList (published.label.toList ++ ':' :: exchanged.map letter)) =
        .error .invalidChecksum ∧
      published.encode.toList.rtake 8 ≠ turned.encode.toList.rtake 8 := by
  obtain ⟨htexts, -, -, hbits⟩ := bursts_detected
  have hlabel : ∀ c ∈ published.label.toList, c.isUpper = false := by simp [published]
  have hread : decode published.encode = .ok published := decode_encode (by decide) hlabel
  have hgroups : published.textGroups = 0 :: 1 :: published.textGroups.drop 2 := by
    decide +kernel
  have hwithin : DifferWithin 8 (published.textGroups.map letter) (exchanged.map letter) := by
    rw [hgroups]
    exact .of_window [] ((published.textGroups.drop 2).map letter)
      (u := [letter 0, letter 1]) (v := [letter 1, letter 0]) rfl (by decide)
  refine ⟨hread, ?_, (hbits published turned rfl rfl (by decide) ?_).2.2⟩
  · refine htexts _ _ _ _ _ _ (isUpper_of_mem_encode hlabel) hread published.toList_encode
      (colon_notMem mem_alphabet_of_mem_map) String.toList_ofList (fun hsame => ?_)
      (fun c hc => .inr (mem_alphabet_of_mem_map c hc)) hwithin
    have hletters := congrArg String.toList hsame
    rw [String.toList_ofList, toList_encode, List.append_right_inj, List.cons_inj_right, hgroups]
      at hletters
    exact absurd (List.head_eq_of_cons_eq hletters) (by decide)
  · exact .of_window (rowBits 8 (published.hash.bytes.take 19)) [] (u := bitsOf 8 0x73)
      (v := bitsOf 8 0x72) rfl (by decide)

end CashAddress

end CashWallet
