import CashWallet.Proofs.Transaction.Codec
import CashWallet.Proofs.Wire.Form

/-!
# `CashWallet/Proofs/Transaction/Normal.lean` — writing again what was read

A transaction has four kinds of numbers that can stand in a longer form: the two counts, and the
length in front of every script. Nothing else in its bytes has a choice. So **reading a transaction
and writing it again changes nothing but the forms of these numbers**: the bytes that were read are
the transaction laid out with some forms (`Tx.encodeIn`), the written ones are the same with the
shortest, and the two are equal exactly when every form was the shortest already.

The condition is asked of every number by itself (`Tx.EachCount`), however many there are, because
what one number has too much no other can make up for (`IsFormWhen.append`).

There is one step for each kind of element: what a reader of inputs took is the input with a form
for its length, and what is laid out with that form is the written one when the form is the
shortest. Rows of elements go through both along the list of their forms.

The transaction that comes back has another name than the one that was read, if it was read from
more bytes. Named anew (`Tx.renamed`), what was read is as a reader leaves it, which is all that the
laws of the codec ask for.
-/

set_option autoImplicit false

namespace CashWallet

open Reader VarInt

/-! ## Inputs and outputs -/

namespace TxInput

/-- The bytes of an input with the length of its script in a form of choice. -/
def encodeIn (i : TxInput) (form : Bytes) : Bytes :=
  i.outPointBytes ++ (form ++ (i.unlocking.bytes ++ Bytes.ofNatLE 4 i.sequence.toNat))

theorem encode_eq (i : TxInput) :
    i.encode = i.outPointBytes ++ (ofCount i.unlocking.size ++
      (i.unlocking.bytes ++ Bytes.ofNatLE 4 i.sequence.toNat)) := by
  simp only [encode, varBytes, Script.size, List.append_assoc]

/-- What was taken for an input is the input, with the length of its script in some form. -/
theorem read_eq_ok {label : String} {b rest : Bytes} {i : TxInput}
    (h : read label b = (.ok i, rest)) :
    ∃ form, IsForm i.unlocking.size form ∧ b = i.encodeIn form ++ rest := by
  obtain ⟨prevHash, b₁, hhash, h⟩ := bind_eq_ok h
  obtain ⟨prevIndex, b₂, hindex, h⟩ := bind_eq_ok h
  obtain ⟨unlocking, b₃, hscript, h⟩ := bind_eq_ok h
  obtain ⟨sequence, hsequence, rfl⟩ := bind_pure_eq_ok h
  obtain ⟨form, hform, hb₂⟩ := varBytes_eq_ok hscript
  refine ⟨form, hform, ?_⟩
  rw [hash256_eq_ok hhash, uint32_eq_ok hindex, hb₂, uint32_eq_ok hsequence]
  simp only [encodeIn, outPointBytes, derive, List.append_assoc]

theorem isConsistent_of_read {label : String} {b rest : Bytes} {i : TxInput}
    (h : read label b = (.ok i, rest)) : i.IsConsistent label := by
  obtain ⟨prevHash, b₁, -, h⟩ := bind_eq_ok h
  obtain ⟨prevIndex, b₂, -, h⟩ := bind_eq_ok h
  obtain ⟨unlocking, b₃, -, h⟩ := bind_eq_ok h
  obtain ⟨sequence, -, rfl⟩ := bind_pure_eq_ok h
  rfl

theorem isFormWhen_encodeIn {i : TxInput} {form : Bytes} (h : IsForm i.unlocking.size form) :
    IsFormWhen (IsShortest i.unlocking.size form) i.encode (i.encodeIn form) := by
  rw [encode_eq, encodeIn]
  exact (h.isFormWhen.extend _).prepend _

end TxInput

namespace TxOutput

/-- The bytes of an output with the length of its script in a form of choice. -/
def encodeIn (o : TxOutput) (form : Bytes) : Bytes :=
  Bytes.ofNatLE 8 o.value.toNat ++ (form ++ o.locking.bytes)

/-- What was taken for an output is the output, with the length of its script in some form. -/
theorem read_eq_ok {label : String} {b rest : Bytes} {o : TxOutput}
    (h : read label b = (.ok o, rest)) :
    ∃ form, IsForm o.locking.size form ∧ b = o.encodeIn form ++ rest := by
  obtain ⟨value, b₁, hvalue, h⟩ := bind_eq_ok h
  obtain ⟨locking, hscript, rfl⟩ := bind_pure_eq_ok h
  obtain ⟨form, hform, hb₁⟩ := varBytes_eq_ok hscript
  refine ⟨form, hform, ?_⟩
  rw [uint64_eq_ok hvalue, hb₁]
  simp only [encodeIn, derive, List.append_assoc]

theorem isConsistent_of_read {label : String} {b rest : Bytes} {o : TxOutput}
    (h : read label b = (.ok o, rest)) : o.IsConsistent label := by
  obtain ⟨value, b₁, -, h⟩ := bind_eq_ok h
  obtain ⟨locking, -, rfl⟩ := bind_pure_eq_ok h
  rfl

theorem isFormWhen_encodeIn {o : TxOutput} {form : Bytes} (h : IsForm o.locking.size form) :
    IsFormWhen (IsShortest o.locking.size form) o.encode (o.encodeIn form) :=
  (h.isFormWhen.extend o.locking.bytes).prepend (Bytes.ofNatLE 8 o.value.toNat)

end TxOutput

/-! ## Transactions -/

namespace Tx

/-- A form for every number in a transaction: for the two counts, and in the order of the rows for
the lengths of the scripts. -/
structure Forms where
  inputCount : Bytes
  unlocking : List Bytes
  outputCount : Bytes
  locking : List Bytes

/-- What is asked of a number and its form is so for every number in the transaction. -/
structure EachCount (p : Nat → Bytes → Prop) (t : Tx) (forms : Forms) : Prop where
  inputCount : p t.inputs.length forms.inputCount
  unlocking : List.Forall₂ (fun i x => p i.unlocking.size x) t.inputs forms.unlocking
  outputCount : p t.outputs.length forms.outputCount
  locking : List.Forall₂ (fun o x => p o.locking.size x) t.outputs forms.locking

/-- The bytes of a transaction with its numbers in forms of choice. -/
def encodeIn (t : Tx) (forms : Forms) : Bytes :=
  Bytes.ofNatLE 4 t.version.toNat ++
    (forms.inputCount ++ (rowIn TxInput.encodeIn t.inputs forms.unlocking ++
      (forms.outputCount ++ (rowIn TxOutput.encodeIn t.outputs forms.locking ++
        Bytes.ofNatLE 4 t.lockTime.toNat))))

/-- The transaction with its name taken over the bytes that are written. -/
def renamed (t : Tx) : Tx :=
  t.rebuilt t.inputs t.outputs

theorem encode_renamed (t : Tx) : t.renamed.encode = t.encode :=
  rfl

/-- **The bytes that were read are the transaction in some forms.** It is named by these bytes, and
but for its name it is as a reader leaves it. -/
theorem exists_forms_of_read {label : String} {b rest : Bytes} {t : Tx}
    (h : read label b = (.ok t, rest)) :
    ∃ forms, t.EachCount IsForm forms ∧ b = t.encodeIn forms ++ rest ∧
      t.hash = .ofContent (t.encodeIn forms) ∧ t.renamed.IsConsistent label := by
  rw [read_eq] at h
  cases hparts : readParts label b with
  | mk o mid =>
    rw [hparts] at h
    cases o with
    | error e => cases h
    | ok parts =>
      cases h
      -- The six parts, and what was left behind each.
      obtain ⟨version, b₁, hversion, hparts⟩ := bind_eq_ok hparts
      obtain ⟨inputCount, b₂, hinputCount, hparts⟩ := bind_eq_ok hparts
      obtain ⟨inputs, b₃, hinputs, hparts⟩ := bind_eq_ok hparts
      obtain ⟨outputCount, b₄, houtputCount, hparts⟩ := bind_eq_ok hparts
      obtain ⟨outputs, b₅, houtputs, hparts⟩ := bind_eq_ok hparts
      obtain ⟨lockTime, hlockTime, rfl⟩ := bind_pure_eq_ok hparts
      have hkept := forall_of_times TxInput.isConsistent_of_read (fields_eq_ok hinputs)
      have hpaid := forall_of_times TxOutput.isConsistent_of_read (fields_eq_ok houtputs)
      -- What was taken for a count is a form of it, and for a row the row in some forms.
      obtain ⟨c, hc, hb₁, -⟩ := elementCount_eq_ok hinputCount
      obtain ⟨rfl, unlocking, hunlocking, hb₂⟩ :=
        times_eq_ok TxInput.read_eq_ok (fields_eq_ok hinputs)
      obtain ⟨d, hd, hb₃, -⟩ := elementCount_eq_ok houtputCount
      obtain ⟨rfl, locking, hlocking, hb₄⟩ :=
        times_eq_ok TxOutput.read_eq_ok (fields_eq_ok houtputs)
      have hb : b = Bytes.ofNatLE 4 version.toNat ++ (c ++ (rowIn TxInput.encodeIn inputs unlocking ++
          (d ++ (rowIn TxOutput.encodeIn outputs locking ++ Bytes.ofNatLE 4 lockTime.toNat)))) ++
            rest := by
        rw [uint32_eq_ok (fields_eq_ok hversion), hb₁, hb₂, hb₃, hb₄,
          uint32_eq_ok (fields_eq_ok hlockTime)]
        simp only [List.append_assoc]
      refine ⟨⟨c, unlocking, d, locking⟩, ⟨hc, hunlocking, hd, hlocking⟩, hb, ?_,
        ⟨rfl, rfl, hkept, hpaid⟩⟩
      rw [hb, List.length_append, Nat.add_sub_cancel, List.take_left]
      rfl

theorem isConsistent_renamed {label : String} {b rest : Bytes} {t : Tx}
    (h : read label b = (.ok t, rest)) : t.renamed.IsConsistent label := by
  obtain ⟨-, -, -, -, hconsistent⟩ := exists_forms_of_read h
  exact hconsistent

/-- **A transaction in some forms is the written one when each of them is the shortest.** -/
theorem isFormWhen_encodeIn {t : Tx} {forms : Forms} (h : t.EachCount IsForm forms) :
    IsFormWhen (t.EachCount IsShortest forms) t.encode (t.encodeIn forms) := by
  have hinputs := isFormWhen_row TxInput.isFormWhen_encodeIn h.unlocking
  have houtputs := isFormWhen_row TxOutput.isFormWhen_encodeIn h.locking
  rw [encode_eq, encodeIn]
  refine ((h.inputCount.isFormWhen.append (hinputs.append (h.outputCount.isFormWhen.append
    (houtputs.extend _)))).prepend _).congr ?_
  constructor
  · rintro ⟨hc, hi, hd, ho⟩
    exact ⟨hc, hi, hd, ho⟩
  · rintro ⟨hc, hi, hd, ho⟩
    exact ⟨hc, hi, hd, ho⟩

/-- Every number that has a form can be written. -/
theorem countsFit_of_forms {t : Tx} {forms : Forms} (h : t.EachCount IsForm forms) :
    t.CountsFit :=
  ⟨h.inputCount.lt, h.outputCount.lt, lt_of_forms h.unlocking, lt_of_forms h.locking⟩

/-- **Writing again what was read** only puts its numbers into their shortest form. Let a
transaction be read from the front of a string. It is written in no more bytes than were taken. What
was taken is the transaction with each of its counts and lengths in some form, and it is the written
form exactly when each of these is the shortest. From the written form, whatever stands behind it, a
transaction is read with the same version, inputs, outputs and lock time. -/
theorem encode_of_measure {label : String} {b : Bytes} {t : Tx} {used : Nat}
    (h : (read label).measure b = .ok (t, used)) :
    t.encode.length ≤ used ∧ used ≤ b.length ∧
      (∃ forms, t.EachCount IsForm forms ∧ b.take used = t.encodeIn forms) ∧
      (∀ forms, t.EachCount IsForm forms → b.take used = t.encodeIn forms →
        (t.encode = b.take used ↔ t.EachCount IsShortest forms)) ∧
      ∃ t', (∀ s, (read label).measure (t.encode ++ s) = .ok (t', t.encode.length)) ∧
        t'.version = t.version ∧ t'.inputs = t.inputs ∧ t'.outputs = t.outputs ∧
        t'.lockTime = t.lockTime := by
  obtain ⟨rest, hread, rfl⟩ := measure_eq_ok_iff.mp h
  obtain ⟨forms, hforms, rfl, -, hconsistent⟩ := exists_forms_of_read hread
  have htaken : (t.encodeIn forms ++ rest).length - rest.length = (t.encodeIn forms).length := by
    rw [List.length_append, Nat.add_sub_cancel]
  rw [htaken, List.take_left]
  refine ⟨(isFormWhen_encodeIn hforms).isFormOf.length_le, ?_, ⟨forms, hforms, rfl⟩, ?_, ?_⟩
  · rw [List.length_append]
    exact Nat.le_add_right _ _
  · intro forms' hforms' hsame
    rw [hsame]
    exact (isFormWhen_encodeIn hforms').eq_iff
  · have hrenamed : t.renamed.EachCount IsForm forms :=
      ⟨hforms.inputCount, hforms.unlocking, hforms.outputCount, hforms.locking⟩
    have hback := reads hconsistent (countsFit_of_forms hrenamed)
    rw [encode_renamed] at hback
    exact ⟨t.renamed, hback.measure_append, rfl, rfl, rfl, rfl⟩

/-- A transaction with an input and an output. -/
def oneEach : Tx :=
  build mainLabel 1 [.derive mainLabel .zero 0 ⟨[0x51]⟩ 0] [.derive mainLabel 5 ⟨[0x52]⟩] 0

/-- The number of its inputs in three bytes, and the length of its locking script in five. -/
def longForms : Forms :=
  ⟨[0xfd, 1, 0], [[1]], [1], [[0xfe, 1, 0, 0, 0]]⟩

def longOneEach : Tx :=
  { oneEach with hash := .ofContent (oneEach.encodeIn longForms) }

theorem eachCount_longForms : longOneEach.EachCount IsForm longForms where
  inputCount := ⟨1, rfl, fun _ => rfl⟩
  unlocking := .cons ⟨1, rfl, fun _ => rfl⟩ .nil
  outputCount := ⟨1, rfl, fun _ => rfl⟩
  locking := .cons ⟨1, rfl, fun _ => rfl⟩ .nil

/-- Six bytes are saved by writing the transaction again, and what is written is read as the same
transaction but for its name. -/
theorem encode_of_measure_longOneEach :
    (read mainLabel).measure (oneEach.encodeIn longForms ++ [7]) = .ok (longOneEach, 68) ∧
      longOneEach.encode ≠ (oneEach.encodeIn longForms ++ [7]).take 68 ∧
      longOneEach.encode.length = 62 ∧
      ∃ t', (read mainLabel).measure (longOneEach.encode ++ [7]) = .ok (t', 62) ∧
        t'.inputs = longOneEach.inputs ∧ t'.outputs = longOneEach.outputs := by
  have hread : (read mainLabel).measure (oneEach.encodeIn longForms ++ [7]) =
      .ok (longOneEach, 68) := rfl
  have hlength : longOneEach.encode.length = 62 := rfl
  obtain ⟨-, -, -, hsame, t', hback, -, hinputs, houtputs, -⟩ := encode_of_measure hread
  refine ⟨hread, fun heq => ?_, hlength, t', ?_, hinputs, houtputs⟩
  · -- One byte would do for the number of inputs.
    have hshortest := (hsame longForms eachCount_longForms rfl).mp heq
    exact absurd (hshortest.inputCount [1] ⟨1, rfl, fun _ => rfl⟩) (by decide)
  · rw [← hlength]
    exact hback [7]

end Tx

end CashWallet
