import CashWallet.Proofs.Transaction.Normal

/-!
# `CashWallet/Proofs/Transaction/Name.lean` — when the name of a transaction is the hash of its bytes

A transaction keeps its name beside its parts. Making one from parts and changing one take the name
over the bytes that are written; **reading one takes it over the bytes that were read**, and these
are the bytes that are written only when every count and every length in them has its shortest form.

So the name of a transaction that was read from longer forms is not the hash of its bytes, until the
first change puts it right. `Tx.hash_eq_ofContent_iff` says exactly when the two agree, over all the
ways in which a transaction can come to be and all the changes it can go through. A change is a step
that either takes the name anew or does nothing (`Change.hash_apply`), and a run of changes is the
induction along them.

Whether a change takes effect does not depend on the changes before it: new outputs and new scripts
leave the number of inputs, and there is nothing else to ask for (`Change.takesEffect_apply`). So it
is asked of the transaction as it was made.

The bytes that were read are the written ones, or they are more (`IsFormOf`). That more bytes hash
alike is not excluded and stands in the condition, since nothing is assumed of the hash.
-/

set_option autoImplicit false

namespace CashWallet

open Reader

namespace Tx

/-! ## What reading takes -/

/-- **A transaction is named by the bytes that were read**, which are a form of its own. -/
theorem read_eq_ok {label : String} {b rest : Bytes} {t : Tx} (h : read label b = (.ok t, rest)) :
    ∃ x, b = x ++ rest ∧ IsFormOf t.encode x ∧ t.hash = .ofContent x := by
  obtain ⟨forms, hforms, rfl, hname, -⟩ := exists_forms_of_read h
  exact ⟨t.encodeIn forms, rfl, (isFormWhen_encodeIn hforms).isFormOf, hname⟩

/-! ## Where a transaction comes from -/

/-- The transaction was made from the bytes: from parts that are written so, or by reading them from
the front of a string, as a whole string, or as a text of digits. -/
inductive ComesFrom : Tx → Bytes → Prop
  | parts (label : String) (version : UInt32) (inputs : List TxInput) (outputs : List TxOutput)
      (lockTime : UInt32) :
      ComesFrom (build label version inputs outputs lockTime)
        (encodeParts version inputs outputs lockTime)
  | front {label : String} {b rest : Bytes} {t : Tx} (h : read label b = (.ok t, rest)) :
      ComesFrom t (b.take (b.length - rest.length))
  | whole {b : Bytes} {t : Tx} (h : decode b = .ok t) : ComesFrom t b
  | digits {text : String} {b : Bytes} {t : Tx} (hb : Hex.decode text = .ok b)
      (h : parse text = .ok t) : ComesFrom t b

theorem decode_eq_ok {b : Bytes} {t : Tx} (h : decode b = .ok t) :
    IsFormOf t.encode b ∧ t.hash = .ofContent b := by
  rw [decode] at h
  cases hread : read mainLabel b with
  | mk o rest =>
    rw [hread] at h
    cases o with
    | error e => cases h
    | ok t' =>
      cases rest with
      | cons c rest => cases h
      | nil =>
        cases h
        obtain ⟨x, hx, hform, hname⟩ := read_eq_ok hread
        rw [List.append_nil] at hx
        rw [hx]
        exact ⟨hform, hname⟩

/-- However a transaction was made, it is named by the bytes that it was made from, and these are
its own bytes or more. -/
theorem ComesFrom.isFormOf {t : Tx} {x : Bytes} (h : ComesFrom t x) :
    IsFormOf t.encode x ∧ t.hash = .ofContent x := by
  cases h with
  | parts => exact ⟨.refl _, rfl⟩
  | front h =>
    obtain ⟨x, rfl, hform, hname⟩ := read_eq_ok h
    rw [List.length_append, Nat.add_sub_cancel, List.take_left]
    exact ⟨hform, hname⟩
  | whole h => exact decode_eq_ok h
  | digits hb h =>
    rw [parse, hb] at h
    exact decode_eq_ok h

/-! ## Changes -/

/-- What can be done to a transaction: an unlocking script is put at an input, or an output at the
end. -/
inductive Change
  | unlocking (index : Nat) (script : Script)
  | output (o : TxOutput)

namespace Change

/-- The transaction after a change; an unlocking script for an input that is not there changes
nothing. -/
def apply (t : Tx) : Change → Tx
  | unlocking index script =>
    match t.setUnlocking? index script with
    | some (changed, _) => changed
    | none => t
  | output o => t.pushOutput o

theorem apply_unlocking (t : Tx) (index : Nat) (script : Script) :
    (unlocking index script).apply t = ((t.setUnlocking? index script).map Prod.fst).getD t := by
  rw [apply]
  cases t.setUnlocking? index script with
  | none => rfl
  | some pair => rfl

/-- A change does something, which is so unless it is meant for an input that is not there. -/
def TakesEffect (t : Tx) : Change → Prop
  | unlocking index _ => index < t.inputs.length
  | output _ => True

/-- **One change** names the transaction anew, or leaves it as it was. -/
theorem hash_apply (t : Tx) (c : Change) :
    (c.TakesEffect t ∧ (c.apply t).hash = .ofContent (c.apply t).encode) ∨
      (¬ c.TakesEffect t ∧ c.apply t = t) := by
  cases c with
  | output o => exact .inl ⟨trivial, rfl⟩
  | unlocking index script =>
    by_cases hindex : index < t.inputs.length
    · refine .inl ⟨hindex, ?_⟩
      simp only [apply, setUnlocking?, List.getElem?_eq_getElem hindex]
      rfl
    · refine .inr ⟨hindex, ?_⟩
      simp only [apply, setUnlocking?, List.getElem?_eq_none (Nat.le_of_not_lt hindex)]

theorem length_inputs_apply (t : Tx) (c : Change) :
    (c.apply t).inputs.length = t.inputs.length := by
  cases c with
  | output o => rfl
  | unlocking index script =>
    simp only [apply, setUnlocking?]
    cases t.inputs[index]? with
    | none => rfl
    | some i => exact List.length_set

/-- No change makes another take effect, or keeps it from it. -/
theorem takesEffect_apply (t : Tx) (c c' : Change) :
    c'.TakesEffect (c.apply t) ↔ c'.TakesEffect t := by
  cases c' with
  | output o => exact Iff.rfl
  | unlocking index script =>
    show index < (c.apply t).inputs.length ↔ index < t.inputs.length
    rw [length_inputs_apply]

end Change

/-- The transaction after some changes, one after the other. -/
def changed (t : Tx) (changes : List Change) : Tx :=
  changes.foldl (fun t c => c.apply t) t

/-- **A run of changes** keeps the name right. -/
theorem hash_changed_of_hash {t : Tx} (changes : List Change) (h : t.hash = .ofContent t.encode) :
    (t.changed changes).hash = .ofContent (t.changed changes).encode := by
  induction changes generalizing t with
  | nil => exact h
  | cons c changes ih =>
    refine ih (t := c.apply t) ?_
    obtain ⟨-, hnew⟩ | ⟨-, hsame⟩ := c.hash_apply t
    · exact hnew
    · rwa [hsame]

/-- One change that takes effect, wherever it stands, puts the name right. -/
theorem hash_changed_of_takesEffect {t : Tx} {changes : List Change}
    (h : ∃ c ∈ changes, c.TakesEffect t) :
    (t.changed changes).hash = .ofContent (t.changed changes).encode := by
  induction changes generalizing t with
  | nil =>
    obtain ⟨c, hc, -⟩ := h
    cases hc
  | cons c changes ih =>
    obtain ⟨-, hnew⟩ | ⟨hnone, hsame⟩ := c.hash_apply t
    · exact hash_changed_of_hash changes hnew
    · -- The first change did nothing, so the one that takes effect is further on.
      obtain ⟨c', hc', heffect⟩ := h
      obtain rfl | hc' := List.mem_cons.mp hc'
      · exact absurd heffect hnone
      · exact ih ⟨c', hc', (Change.takesEffect_apply t c c').mpr heffect⟩

theorem changed_eq_self {t : Tx} {changes : List Change}
    (h : ∀ c ∈ changes, ¬ c.TakesEffect t) : t.changed changes = t := by
  induction changes with
  | nil => rfl
  | cons c changes ih =>
    obtain ⟨heffect, -⟩ | ⟨-, hsame⟩ := c.hash_apply t
    · exact absurd heffect (h c List.mem_cons_self)
    · show (c.apply t).changed changes = t
      rw [hsame]
      exact ih fun c' hc' => h c' (List.mem_cons_of_mem c hc')

/-! ## The name and the hash -/

/-- **When the name of a transaction is the hash of its bytes.** However it comes to be and whatever
changes it goes through, it is so exactly when one of the changes took effect, or the bytes it comes
from are those it is written in, or they are more and happen to have the same hash. -/
theorem hash_eq_ofContent_iff {t : Tx} {x : Bytes} (h : ComesFrom t x) (changes : List Change) :
    (t.changed changes).hash = .ofContent (t.changed changes).encode ↔
      (∃ c ∈ changes, c.TakesEffect t) ∨ x = t.encode ∨
        (t.encode.length < x.length ∧ Digest.sha256d x = Digest.sha256d t.encode) := by
  obtain ⟨hform, hname⟩ := h.isFormOf
  by_cases heffect : ∃ c ∈ changes, c.TakesEffect t
  · exact ⟨fun _ => .inl heffect, fun _ => hash_changed_of_takesEffect heffect⟩
  have hsame : t.changed changes = t :=
    changed_eq_self fun c hc hc' => heffect ⟨c, hc, hc'⟩
  -- What is left is the transaction as it came, under the name of the bytes it came from.
  rw [hsame, hname]
  constructor
  · intro heq
    obtain hx | hlong := hform
    · exact .inr (.inl hx)
    · exact .inr (.inr ⟨hlong, congrArg Hash256.bytes heq⟩)
  · rintro (hc | rfl | ⟨-, hhash⟩)
    · exact absurd hc heffect
    · rfl
    · simp only [Hash256.ofContent, hhash]

/-- A transaction without inputs and outputs, its first count in three bytes in place of one. -/
def longCount : Bytes :=
  [1, 0, 0, 0, 0xfd, 0, 0, 0, 0, 0, 0, 0]

def ofLongCount : Tx :=
  ⟨1, [], [], 0, .ofContent longCount, mainLabel⟩

theorem decode_longCount : decode longCount = .ok ofLongCount := rfl

/-- Read from its longer form a transaction has another name than the hash of its bytes, also after
a change that finds no input; with an output more its name is right. -/
theorem hash_eq_ofContent_iff_longCount :
    (ofLongCount.changed [.unlocking 0 .empty]).hash ≠
        .ofContent (ofLongCount.changed [.unlocking 0 .empty]).encode ∧
      (ofLongCount.changed [.output (.derive mainLabel 0 .empty)]).hash =
        .ofContent (ofLongCount.changed [.output (.derive mainLabel 0 .empty)]).encode := by
  have hfrom : ComesFrom ofLongCount longCount := .whole decode_longCount
  have hhash : Digest.sha256d longCount ≠ Digest.sha256d ofLongCount.encode := by
    decide +kernel
  constructor
  · rw [Ne, hash_eq_ofContent_iff hfrom]
    rintro (⟨c, hc, heffect⟩ | hx | ⟨-, hsame⟩)
    · obtain rfl := List.mem_singleton.mp hc
      exact absurd heffect (Nat.not_lt_zero 0)
    · exact hhash (congrArg Digest.sha256d hx)
    · exact hhash hsame
  · rw [hash_eq_ofContent_iff hfrom]
    exact .inl ⟨_, List.mem_singleton.mpr rfl, trivial⟩

end Tx

end CashWallet
