import CashWallet.Proofs.Address.Burst

/-!
# `CashWallet/Proofs/Address/Label.lean` — an address of one network is none of another

What is shown behind the colon of an address says nothing about its network: it is the label in
front that is bound to it, by the checksum. Two texts with one payload and two labels run through
the same groups, only from two states, and **a difference of states is never lost again**
(`run_injective`). So a payload is accepted under two labels only if the labels lead the checksum to
one state (`CashAddress.polymod_eq_of_decode`), however long it is and whatever it holds; and if
they do, it is accepted under the one as under the other (`CashAddress.decode_of_polymod_eq`). The
labels of the two networks do not (`CashAddress.labels_apart`).

Of a label only the low five bits of each byte count, so there are labels that do: capitals and
small letters, and letters and digits, share them.

What makes the statement more than a run of the checksum is the cut. A text is cut at its **last**
colon, so a payload with a colon in it moves the cut, and the label that is read is longer than the
one in front. Where the last colon of the payload stands does not depend on the label, though, so
both texts are cut at the same place behind their labels (`parts_of_decode`).
-/

set_option autoImplicit false

namespace CashWallet.CashAddress

/-! ## The groups of a label -/

/-- What the checksum sees of a character: the low five bits of its bytes. -/
def groupsOfChar (c : Char) : Bytes :=
  (String.utf8EncodeChar c).map (· &&& 0x1f)

/-- A capital and its small letter have the same low five bits. -/
theorem groupsOfChar_toLower (c : Char) : groupsOfChar c.toLower = groupsOfChar c := by
  have hcapitals : ∀ n < 26, groupsOfChar (Char.ofNat (65 + n)).toLower =
      groupsOfChar (Char.ofNat (65 + n)) := by
    decide
  cases hc : c.isUpper with
  | false => rw [toLower_eq_self hc]
  | true =>
    have hrange : 65 ≤ c.toNat ∧ c.toNat ≤ 90 := by
      simpa [Char.isUpper, UInt32.le_iff_toNat_le] using hc
    have hn : Char.ofNat (65 + (c.toNat - 65)) = c := by
      rw [Nat.add_sub_cancel' hrange.1, Char.ofNat_toNat]
    rw [← hn]
    exact hcapitals _ (by omega)

/-- The state that a label leads the checksum to. -/
def labelState (cs : List Char) : Nat :=
  Checksum.run 1 (cs.flatMap groupsOfChar)

theorem labelState_lt (cs : List Char) : labelState cs < Checksum.stateBound :=
  Checksum.run_lt (by decide) _

theorem labelState_append (a b : List Char) :
    labelState (a ++ b) = Checksum.run (labelState a) (b.flatMap groupsOfChar) := by
  rw [labelState, List.flatMap_append, Checksum.run_append]
  rfl

theorem labelState_toLower (cs : List Char) : labelState (cs.map Char.toLower) = labelState cs := by
  rw [labelState, List.flatMap_map, funext groupsOfChar_toLower]
  rfl

theorem polymod_checksumInput (label : String) (payload : Bytes) :
    Checksum.polymod (checksumInput label payload) =
      Checksum.run (labelState label.toList) (0 :: payload) ^^^ 1 := by
  rw [checksumInput, Text.utf8, List.map_flatMap, Checksum.polymod, Checksum.run_append]
  rfl

/-- The zero behind a label takes nothing from what tells labels apart. -/
theorem polymod_label_eq_iff {s t : String} :
    Checksum.polymod (checksumInput s []) = Checksum.polymod (checksumInput t []) ↔
      labelState s.toList = labelState t.toList := by
  rw [polymod_checksumInput, polymod_checksumInput, Nat.xor_left_inj]
  constructor
  · exact Checksum.run_injective (labelState_lt _) (labelState_lt _)
  · intro h
    rw [h]

/-! ## One payload behind two labels -/

/-- Where the last colon stands does not depend on the label in front: the label of an address that
is read is the one in front in small letters, with what stands behind it up to the last colon. -/
theorem parts_of_decode {s payload : String} {a : CashAddress}
    (h : decode (s ++ ":" ++ payload) = .ok a) :
    ∃ more, a.label.toList = s.toList.map Char.toLower ++ more ∧
      splitLast? (':' :: payload.toList.map Char.toLower) = some (more, a.textGroups.map letter) := by
  obtain ⟨-, -, htext⟩ := decode_eq_ok_iff.mp h
  have htext := congrArg String.toList htext
  have hletters : ':' ∉ a.textGroups.map letter := colon_notMem mem_alphabet_of_mem_map
  rw [toList_encode, String.toLower, String.toList_map, String.toList_append, String.toList_append,
    List.append_assoc, List.map_append] at htext
  change _ = _ ++ ':' :: payload.toList.map Char.toLower at htext
  obtain ⟨rest, hfront, hrest⟩ | ⟨more, hlabel, hmore⟩ := List.append_eq_append_iff.mp htext
  · cases rest with
    | nil =>
      refine ⟨[], ?_, splitLast?_eq_some_iff.mpr ⟨hrest.symm, hletters⟩⟩
      rw [hfront, List.append_nil, List.append_nil]
    | cons c rest =>
      -- The colon in front of the payload would be one of the letters behind the last colon.
      rw [List.cons_append, List.cons.injEq] at hrest
      exact absurd (hrest.2 ▸ List.mem_append_right _ List.mem_cons_self) hletters
  · exact ⟨more, hlabel, splitLast?_eq_some_iff.mpr ⟨hmore, hletters⟩⟩

/-- A label, what follows it up to the last colon, and the groups behind that lead to the state of a
row that passes the check. -/
theorem run_labelState {s : String} {a : CashAddress} {more : List Char}
    (hlabel : a.label.toList = s.toList.map Char.toLower ++ more) :
    Checksum.run (labelState s.toList) (more.flatMap groupsOfChar ++ 0 :: a.textGroups) = 1 := by
  have hsum := a.polymod_textGroups
  rw [polymod_checksumInput, hlabel, labelState_append, labelState_toLower, ← Checksum.run_append,
    Nat.xor_eq_zero_iff] at hsum
  exact hsum

/-- **A payload that is accepted behind two labels** is so because the labels lead to one state. -/
theorem polymod_eq_of_decode {s t payload : String} {a b : CashAddress}
    (ha : decode (s ++ ":" ++ payload) = .ok a) (hb : decode (t ++ ":" ++ payload) = .ok b) :
    Checksum.polymod (checksumInput s []) = Checksum.polymod (checksumInput t []) := by
  obtain ⟨more, hlabel, hparts⟩ := parts_of_decode ha
  obtain ⟨more', hlabel', hparts'⟩ := parts_of_decode hb
  rw [hparts, Option.some.injEq, Prod.mk.injEq] at hparts'
  obtain ⟨rfl, hletters⟩ := hparts'
  have hgroups := eq_of_map_letter_eq a.fits_textGroups b.fits_textGroups hletters
  have hend := run_labelState hlabel
  rw [hgroups] at hend
  have hsame := hend.trans (run_labelState hlabel').symm
  exact polymod_label_eq_iff.mpr
    (Checksum.run_injective (labelState_lt _) (labelState_lt _) hsame)

/-! ## Labels that are as good as each other -/

/-- The address under another label. -/
def relabel (a : CashAddress) (label : String) : CashAddress :=
  { a with label }

/-- Under a label that leads to the same state the groups of an address are the same. -/
theorem textGroups_relabel {a : CashAddress} {label : String}
    (h : labelState label.toList = labelState a.label.toList) :
    (a.relabel label).textGroups = a.textGroups := by
  have hpayload : (a.relabel label).payloadGroups = a.payloadGroups := rfl
  have hsum (payload : Bytes) : Checksum.polymod (checksumInput label payload) =
      Checksum.polymod (checksumInput a.label payload) := by
    rw [polymod_checksumInput, polymod_checksumInput, h]
  rw [textGroups, textGroups, hpayload, Checksum.completion, Checksum.completion,
    ← checksumInput_append, ← checksumInput_append]
  exact congrArg (a.payloadGroups ++ Checksum.groupsOf ·) (hsum _)

/-- **A payload without capitals that is accepted behind a label** is accepted behind every other
that leads to the same state, as the same kind of address with the same hash. -/
theorem decode_of_polymod_eq {s t payload : String} {a : CashAddress} (hne : t ≠ "")
    (ht : ∀ c ∈ t.toList, c.isUpper = false)
    (hpayload : ∀ c ∈ payload.toList, c.isUpper = false)
    (ha : decode (s ++ ":" ++ payload) = .ok a)
    (h : Checksum.polymod (checksumInput s []) = Checksum.polymod (checksumInput t [])) :
    ∃ b, decode (t ++ ":" ++ payload) = .ok b ∧ b.kind = a.kind ∧ b.hash = a.hash := by
  obtain ⟨more, hlabel, hparts⟩ := parts_of_decode ha
  rw [map_toLower_eq_self hpayload, splitLast?_eq_some_iff] at hparts
  obtain ⟨hsplit, -⟩ := hparts
  refine ⟨a.relabel (t ++ String.ofList more), ?_, rfl, rfl⟩
  -- What stands between the label and the last colon belongs to the payload.
  have hmore : ∀ c ∈ more, c.isUpper = false := by
    intro c hc
    have hmem : c ∈ ':' :: payload.toList := hsplit ▸ List.mem_append_left _ hc
    obtain rfl | hmem := List.mem_cons.mp hmem
    · rfl
    · exact hpayload c hmem
  have hgroups : (a.relabel (t ++ String.ofList more)).textGroups = a.textGroups := by
    refine textGroups_relabel ?_
    rw [String.toList_append, String.toList_ofList, hlabel, labelState_append, labelState_append,
      labelState_toLower, polymod_label_eq_iff.mp h]
  have htext : t ++ ":" ++ payload = (a.relabel (t ++ String.ofList more)).encode := by
    rw [← String.toList_inj, toList_encode, hgroups]
    simp only [String.toList_append, relabel, String.toList_ofList, List.append_assoc]
    rw [← hsplit]
    rfl
  rw [htext]
  refine decode_encode ?_ ?_
  · intro hempty
    have hempty := congrArg String.toList hempty
    rw [relabel, String.toList_append, String.toList_ofList] at hempty
    exact hne (String.toList_eq_nil_iff.mp (List.append_eq_nil_iff.mp hempty).1)
  · intro c hc
    rw [relabel, String.toList_append, String.toList_ofList, List.mem_append] at hc
    exact hc.elim (ht c) (hmore c)

/-! ## Networks -/

/-- **An address of one network is none of another.** If a text is read as an address, and another
with the same payload behind another label is, too, then the two labels, each with the zero behind
it, have the same remainder. And that is all that it takes: a payload without capitals that is read
behind a label is read behind every other with the same remainder. So no payload whatever is read as
an address both behind the label of the one network and behind that of the other. -/
theorem labels_apart :
    (∀ (s t payload : String) (a b : CashAddress), decode (s ++ ":" ++ payload) = .ok a →
      decode (t ++ ":" ++ payload) = .ok b →
      Checksum.polymod (checksumInput s []) = Checksum.polymod (checksumInput t [])) ∧
    (∀ (s t payload : String) (a : CashAddress), t ≠ "" → (∀ c ∈ t.toList, c.isUpper = false) →
      (∀ c ∈ payload.toList, c.isUpper = false) → decode (s ++ ":" ++ payload) = .ok a →
      Checksum.polymod (checksumInput s []) = Checksum.polymod (checksumInput t []) →
      ∃ b, decode (t ++ ":" ++ payload) = .ok b ∧ b.kind = a.kind ∧ b.hash = a.hash) ∧
    ∀ payload : String, ¬ ((∃ a, decode (mainLabel ++ ":" ++ payload) = .ok a) ∧
      ∃ b, decode (testLabel ++ ":" ++ payload) = .ok b) := by
  refine ⟨fun s t payload a b => polymod_eq_of_decode,
    fun s t payload a => decode_of_polymod_eq, ?_⟩
  rintro payload ⟨⟨a, ha⟩, b, hb⟩
  have hnetworks : Checksum.polymod (checksumInput mainLabel []) ≠
      Checksum.polymod (checksumInput testLabel []) := by
    decide +kernel
  exact hnetworks (polymod_eq_of_decode ha hb)

/-- A digit has the low five bits of a letter, so the published address is also read behind a label
that has the one in place of the other. -/
theorem labels_apart_digit :
    Checksum.polymod (checksumInput "bitcoincash" []) =
        Checksum.polymod (checksumInput "bi4coincash" []) ∧
      ∃ b, decode "bi4coincash:qpm2qsznhks23z7629mms6s4cwef74vcwvy22gdx6a" = .ok b ∧
        b.hash = published.hash := by
  have hread : decode ("bitcoincash" ++ ":" ++ "qpm2qsznhks23z7629mms6s4cwef74vcwvy22gdx6a") =
      .ok published := by
    refine decode_eq_ok_iff.mpr ⟨?_, by decide, by decide +kernel⟩
    rw [← isMixedCase_iff]
    decide +kernel
  have hsame : Checksum.polymod (checksumInput "bitcoincash" []) =
      Checksum.polymod (checksumInput "bi4coincash" []) := by
    decide +kernel
  obtain ⟨b, hb, -, hhash⟩ := labels_apart.2.1 "bitcoincash" "bi4coincash"
    "qpm2qsznhks23z7629mms6s4cwef74vcwvy22gdx6a" published (by decide) (by simp) (by simp) hread
    hsame
  exact ⟨labels_apart.1 _ _ _ _ _ hread hb, b, hb, hhash⟩

end CashWallet.CashAddress
