import CashWallet.Wire.Field

/-!
# `CashWallet/Proofs/Wire/Reading.lean` — what it means that a reader takes some bytes

Everything that is written is read from the front of a longer string, so the one notion that fits
together is `Reader.Reads r x a`: **with `x` in front of anything whatsoever, `r` yields `a` and
leaves the anything**. Readers are put together by `do`, and what they take is put together by `++`
(`Reads.bind`); a row of elements takes the concatenation (`Reads.times`).

What a reader takes it also tells apart: bytes that are read determine their value and where they
end, so that no two strings of fields are written alike (`Reads.unique`).

What does not fit are the guards that look at how much is left, since they depend on what stands
behind. A guard that cannot fire once its elements are there is dealt with where the elements are
known (`Reads.guarded`).

The notion is about one string and one value, which is all that is needed to read back what was
written; readers of which every success is so are a notion of their own. For every codec there is
one such fact, named `reads`, and the facts about messages and frames are put together from those.
-/

set_option autoImplicit false

namespace CashWallet.Reader

variable {ε ε' α β γ : Type}

/-! ## The laws of `do` -/

instance : LawfulMonad (Reader ε) :=
  .mk' (Reader ε)
    (fun r => by
      funext b
      show (match r b with
        | (.ok a, rest) => (Except.ok a, rest)
        | (.error e, rest) => (.error e, rest)) = r b
      obtain ⟨o, rest⟩ := r b
      cases o <;> rfl)
    (fun _ _ => rfl)
    (fun r f g => by
      funext b
      simp only [bind_apply]
      obtain ⟨o, rest⟩ := r b
      cases o <;> rfl)

theorem ite_fail_bind {p : Prop} [Decidable p] (e : ε) (a : α) (k : α → Reader ε β) :
    (if p then fail e else pure a : Reader ε α) >>= k = if p then fail e else k a := by
  by_cases hp : p
  · rw [if_pos hp, if_pos hp]
    rfl
  · rw [if_neg hp, if_neg hp]
    rfl

/-! ## Taking exactly some bytes -/

/-- With the given bytes in front of anything, the reader yields the value and leaves the rest. -/
def Reads (r : Reader ε α) (x : Bytes) (a : α) : Prop :=
  ∀ rest, r (x ++ rest) = (.ok a, rest)

namespace Reads

theorem pure (a : α) : Reads (Pure.pure a : Reader ε α) [] a :=
  fun _ => rfl

/-- Readers in a row take bytes in a row. -/
theorem bind {r : Reader ε α} {f : α → Reader ε β} {x y : Bytes} {a : α} {b : β}
    (hr : Reads r x a) (hf : Reads (f a) y b) : Reads (r >>= f) (x ++ y) b := by
  intro rest
  rw [List.append_assoc, bind_of_ok (hr _), hf]

theorem bind_last {r : Reader ε α} {f : α → Reader ε β} {x : Bytes} {a : α} {b : β}
    (hr : Reads r x a) (hf : Reads (f a) [] b) : Reads (r >>= f) x b := by
  have h := hr.bind hf
  rwa [List.append_nil] at h

theorem bind_pure {r : Reader ε α} {x : Bytes} {a : α} (hr : Reads r x a) (g : α → β) :
    Reads (r >>= fun a => Pure.pure (g a)) x (g a) :=
  hr.bind_last (pure (g a))

theorem fields {r : Reader ReadError α} {x : Bytes} {a : α} (hr : Reads r x a) :
    Reads r.fields x a := by
  intro rest
  simp only [Reader.fields, mapError, hr rest]

/-- A row of elements is read from their bytes one after the other. -/
theorem times {r : Reader ε α} {enc : α → Bytes} :
    ∀ {as : List α}, (∀ a ∈ as, Reads r (enc a) a) →
      Reads (r.times as.length) (as.flatMap enc) as
  | [], _ => pure _
  | a :: as, h => by
    have hrow := times fun a' ha' => h a' (List.mem_cons_of_mem a ha')
    exact (h a List.mem_cons_self).bind (hrow.bind_pure (a :: ·))

/-- What may depend on how much is left is read when it is read wherever there is enough. -/
theorem remaining {k : Nat → Reader ε α} {x : Bytes} {a : α}
    (hk : ∀ available, x.length ≤ available → Reads (k available) x a) :
    Reads (Reader.remaining >>= k) x a :=
  fun rest => hk (x ++ rest).length (by simp) rest

/-- A guard that what follows keeps from firing is not noticed. -/
theorem guarded {p : Nat → Prop} [DecidablePred p] {e : Nat → ε} {k : Reader ε α} {x : Bytes}
    {a : α} (hpass : ∀ available, x.length ≤ available → ¬ p available) (hk : Reads k x a) :
    Reads (Reader.remaining >>= fun available => if p available then fail (e available) else k)
      x a := by
  refine remaining fun available hle => ?_
  rw [if_neg (hpass available hle)]
  exact hk

/-! ## What is read is determined -/

/-- **The bytes in front of a string determine what is read from them and where they end.** -/
theorem unique {r : Reader ε α} {x y p q : Bytes} {a b : α} (hx : Reads r x a) (hy : Reads r y b)
    (h : x ++ p = y ++ q) : a = b ∧ p = q := by
  have hread := hx p
  rw [h, hy q] at hread
  cases hread
  exact ⟨rfl, rfl⟩

theorem inj {r : Reader ε α} {x y : Bytes} {a b : α} (hx : Reads r x a) (hy : Reads r y b)
    (h : x = y) : a = b := by
  have hsame : x ++ [] = y ++ [] := by rw [h]
  exact (hx.unique hy hsame).1

/-- The bytes of a row determine what is read from its elements, when every element has some. -/
theorem map_eq_of_flatMap_eq {r : Reader ε β} {enc : α → Bytes} {part : α → β}
    (hne : ∀ a, enc a ≠ []) {as : List α} :
    ∀ {bs : List α}, (∀ a ∈ as, Reads r (enc a) (part a)) →
      (∀ b ∈ bs, Reads r (enc b) (part b)) → as.flatMap enc = bs.flatMap enc →
      as.map part = bs.map part := by
  induction as with
  | nil =>
    intro bs _ _ h
    cases bs with
    | nil => rfl
    | cons b bs =>
      rw [List.flatMap_cons] at h
      exact absurd (List.append_eq_nil_iff.mp h.symm).1 (hne b)
  | cons a as ih =>
    intro bs has hbs h
    cases bs with
    | nil =>
      rw [List.flatMap_cons] at h
      exact absurd (List.append_eq_nil_iff.mp h).1 (hne a)
    | cons b bs =>
      rw [List.flatMap_cons, List.flatMap_cons] at h
      -- The first elements are read from the fronts of one string, so they end at one place and the
      -- rows go on alike.
      obtain ⟨hhead, hrest⟩ := (has a List.mem_cons_self).unique (hbs b List.mem_cons_self) h
      have htail := ih (fun a' ha' => has a' (List.mem_cons_of_mem a ha'))
        (fun b' hb' => hbs b' (List.mem_cons_of_mem b hb')) hrest
      rw [List.map_cons, List.map_cons, hhead, htail]

end Reads

end CashWallet.Reader
