import CashWallet.Proofs.Transaction.Name

/-!
# `CashWallet/Proofs/Transaction/Size.lean` — how many bytes a transaction takes

The size of a transaction is reckoned from its parts, without writing any of them. **It is the
number of bytes that are written** (`Tx.length_encode`), and it is what reading takes, too: a
transaction that was made under a label keeps beside its parts what a reader under the label would
put there, and every change under the label keeps it so (`Tx.IsConsistent.apply`). After any run of
changes it is therefore read from the front of its bytes as it is, and as many bytes are taken as
its size says (`Tx.read_changed`).

A change is under a label when the output that it adds was made under it; a new unlocking script has
nothing to be made under, for the address of the input is read off it there and then. An output that
was made under another label could keep an address that a reader would not find.

No bound is put on the transaction but the one that its counts and lengths have to fit into the 64
bits that they are written in, and that is asked for reading alone.
-/

set_option autoImplicit false

namespace CashWallet

/-! ## Sizes -/

theorem length_varBytes (b : Bytes) :
    (varBytes b).length = VarInt.countWidth b.length + b.length := by
  rw [varBytes, List.length_append, VarInt.ofCount, VarInt.length_encode, VarInt.countWidth]

/-- A row is as long as its elements are together. -/
theorem length_flatMap_eq_foldr {α : Type} {enc : α → Bytes} {size : α → Nat}
    (h : ∀ a, (enc a).length = size a) (as : List α) :
    (as.flatMap enc).length = as.foldr (fun a n => size a + n) 0 := by
  induction as with
  | nil => rfl
  | cons a as ih => rw [List.flatMap_cons, List.length_append, h a, ih, List.foldr_cons]

theorem TxInput.length_encode (i : TxInput) : i.encode.length = i.size := by
  simp only [encode, outPointBytes, List.length_append, i.prevHash.length_bytes,
    Bytes.length_ofNatLE, length_varBytes, size, Script.size]
  omega

theorem TxOutput.length_encode (o : TxOutput) : o.encode.length = o.size := by
  simp only [encode, List.length_append, Bytes.length_ofNatLE, length_varBytes, size, Script.size]
  omega

namespace Tx

/-- **The size of a transaction is the number of its bytes.** -/
theorem length_encode (t : Tx) : t.encode.length = t.size := by
  have hins := length_flatMap_eq_foldr TxInput.length_encode t.inputs
  have houts := length_flatMap_eq_foldr TxOutput.length_encode t.outputs
  simp only [encode, encodeParts, List.length_append, Bytes.length_ofNatLE, VarInt.ofCount,
    VarInt.length_encode, hins, houts, size, VarInt.countWidth]

/-! ## What changes keep -/

/-- A change under a label: an output that is added was made under it. -/
def Change.IsUnder (label : String) : Change → Prop
  | unlocking _ _ => True
  | output o => o.IsConsistent label

theorem isConsistent_build {label : String} (version : UInt32) {inputs : List TxInput}
    {outputs : List TxOutput} (lockTime : UInt32) (hins : ∀ i ∈ inputs, i.IsConsistent label)
    (houts : ∀ o ∈ outputs, o.IsConsistent label) :
    (build label version inputs outputs lockTime).IsConsistent label :=
  ⟨rfl, rfl, hins, houts⟩

namespace IsConsistent

theorem rebuilt {label : String} {t : Tx} (h : t.IsConsistent label) {inputs : List TxInput}
    {outputs : List TxOutput} (hins : ∀ i ∈ inputs, i.IsConsistent label)
    (houts : ∀ o ∈ outputs, o.IsConsistent label) :
    (t.rebuilt inputs outputs).IsConsistent label :=
  ⟨h.label_eq, rfl, hins, houts⟩

/-- **One change** under the label: the address of an input is read off its new script, and the name
is taken anew. -/
theorem apply {label : String} {t : Tx} (h : t.IsConsistent label) {c : Change}
    (hc : c.IsUnder label) : (c.apply t).IsConsistent label := by
  cases c with
  | output o =>
    refine h.rebuilt h.inputs fun o' ho' => ?_
    rcases List.mem_append.mp ho' with ho' | ho'
    · exact h.outputs o' ho'
    · obtain rfl := List.mem_singleton.mp ho'
      exact hc
  | unlocking index script =>
    rw [Change.apply, setUnlocking?]
    cases hi : t.inputs[index]? with
    | none => exact h
    | some i =>
      refine h.rebuilt (fun j hj => ?_) h.outputs
      rcases List.mem_or_eq_of_mem_set hj with hj | rfl
      · exact h.inputs j hj
      · show script.payer? t.label = script.payer? label
        rw [h.label_eq]

/-- **Any run of changes** under the label. -/
theorem changed {label : String} {changes : List Change} :
    ∀ {t : Tx}, t.IsConsistent label → (∀ c ∈ changes, c.IsUnder label) →
      (t.changed changes).IsConsistent label := by
  induction changes with
  | nil => exact fun h _ => h
  | cons c changes ih =>
    intro t h hunder
    exact ih (h.apply (hunder c List.mem_cons_self))
      fun c' hc' => hunder c' (List.mem_cons_of_mem c hc')

end IsConsistent

/-! ## Reading back -/

theorem isConsistent_derive {label : String} {o : TxOutput}
    (h : ∃ value locking, o = .derive label value locking) : o.IsConsistent label := by
  obtain ⟨value, locking, rfl⟩ := h
  rfl

/-- **Reading undoes writing.** A transaction that is made under a label from inputs with the
addresses that their scripts show and from outputs made under it, and then changed by any run of new
unlocking scripts and of added outputs made under it, is written in as many bytes as its size. When
the counts in it are numbers of 64 bits, it is read from the front of its bytes under the label as
it is, whatever stands behind them, and nothing of that is taken. -/
theorem read_changed {label : String} {version lockTime : UInt32} {inputs : List TxInput}
    {outputs : List TxOutput} {changes : List Change} {t : Tx}
    (hins : ∀ i ∈ inputs, i.address = i.unlocking.payer? label)
    (houts : ∀ o ∈ outputs, ∃ value locking, o = .derive label value locking)
    (hnew : ∀ o, .output o ∈ changes → ∃ value locking, o = .derive label value locking)
    (ht : t = (build label version inputs outputs lockTime).changed changes) :
    t.encode.length = t.size ∧
      (t.CountsFit → ∀ rest : Bytes, read label (t.encode ++ rest) = (.ok t, rest) ∧
        (read label).measure (t.encode ++ rest) = .ok (t, t.size)) := by
  have hunder : ∀ c ∈ changes, c.IsUnder label := by
    intro c hc
    cases c with
    | unlocking index script => trivial
    | output o => exact isConsistent_derive (hnew o hc)
  have hmade : (build label version inputs outputs lockTime).IsConsistent label :=
    isConsistent_build version lockTime hins fun o ho => isConsistent_derive (houts o ho)
  have hconsistent : t.IsConsistent label := by
    rw [ht]
    exact hmade.changed hunder
  refine ⟨t.length_encode, fun hfit rest => ?_⟩
  have hread := reads hconsistent hfit rest
  refine ⟨hread, ?_⟩
  simp only [Reader.measure, hread, List.length_append, Nat.add_sub_cancel, length_encode]

def sampleInputs : List TxInput :=
  [.derive "bchtest" .zero 1 .empty 5]

/-- A payment to a lock behind a token. -/
def sampleOutputs : List TxOutput :=
  [.derive "bchtest" 7 ⟨Opcode.tokenMarker :: (Hash256.zero.bytes ++ [0x10, 3, Opcode.op1])⟩]

/-- A script that pushes two parts, an index without an input, and a token that cannot be read. -/
def sampleChanges : List Change :=
  [.unlocking 0 ⟨[1, 0xaa, 2, 0xbb, 0xcc]⟩, .unlocking 7 .empty,
    .output (.derive "bchtest" 9 ⟨[Opcode.tokenMarker]⟩)]

def sampleChanged : Tx :=
  (build "bchtest" 2 sampleInputs sampleOutputs 0).changed sampleChanges

theorem read_changed_sample :
    sampleChanged.CountsFit ∧ sampleChanged.encode.length = sampleChanged.size ∧
      read "bchtest" (sampleChanged.encode ++ [0xff]) = (.ok sampleChanged, [0xff]) ∧
      (read "bchtest").measure (sampleChanged.encode ++ [0xff]) =
        .ok (sampleChanged, sampleChanged.size) := by
  have hins : ∀ i ∈ sampleInputs, i.address = i.unlocking.payer? "bchtest" := by
    intro i hi
    obtain rfl := List.mem_singleton.mp hi
    rfl
  have houts : ∀ o ∈ sampleOutputs, ∃ value locking, o = .derive "bchtest" value locking := by
    intro o ho
    obtain rfl := List.mem_singleton.mp ho
    exact ⟨_, _, rfl⟩
  have hnew : ∀ o, .output o ∈ sampleChanges →
      ∃ value locking, o = .derive "bchtest" value locking := by
    intro o ho
    simp only [sampleChanges, List.mem_cons, Change.output.injEq, reduceCtorEq, false_or,
      List.not_mem_nil, or_false] at ho
    exact ⟨_, _, ho⟩
  have hfit : sampleChanged.CountsFit := ⟨by decide, by decide, by decide, by decide⟩
  have hmade : sampleChanged =
      (build "bchtest" 2 sampleInputs sampleOutputs 0).changed sampleChanges := rfl
  obtain ⟨hsize, hread⟩ := read_changed hins houts hnew hmade
  exact ⟨hfit, hsize, hread hfit [0xff]⟩

end Tx

end CashWallet
