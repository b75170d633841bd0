import CashWallet.Proofs.Wire.Field
import CashWallet.Proofs.Wire.Shortest

/-!
# `CashWallet/Proofs/Wire/Delimited.lean` — readers that look at nothing but what they take

What a peer sends arrives in pieces, and a reader may see more of it or less. **A reader that
succeeds has taken some bytes, and would have done the same whatever stood behind them**
(`Reader.Delimits`). From this alone it follows that fewer bytes are never enough
(`Delimits.isSelfDelimiting`): had it succeeded on a part of what it takes, it would have stopped
there on the whole, too.

It is kept by `do`. Guards are again what does not fit by itself: they look at how much is left. So
the notion also says how many bytes are taken at least, and a guard that fires only when there are
fewer is as good as not there (`Delimits.guarded`).

The fewest bytes are a lower bound and nothing more, so they may be given up where nobody asks for
them (`Delimits.weaken`, `Delimits.before`). Where they are asked for they add up exactly: along a
`do` each reader brings its own, and a row brings those of an element as many times as there are
elements.

Nothing is said of a read that fails, and what it reports does depend on how much is left.
-/

set_option autoImplicit false

namespace CashWallet.Reader

variable {ε α β : Type}

/-- A successful read has taken at least so many bytes, and takes the same ones in front of
anything. -/
def Delimits (r : Reader ε α) (least : Nat) : Prop :=
  ∀ (b rest : Bytes) (a : α), r b = (.ok a, rest) →
    ∃ x, b = x ++ rest ∧ least ≤ x.length ∧ Reads r x a

/-! ## Decoding from the front -/

/-- What is decoded from the front of a string is there in full, does not depend on what stands
behind it, and is not to be had from any part of it. -/
def IsSelfDelimiting (decode : Bytes → Except ε (α × Nat)) : Prop :=
  ∀ (b : Bytes) (a : α) (used : Nat), decode b = .ok (a, used) →
    used ≤ b.length ∧ (∀ s, decode (b.take used ++ s) = .ok (a, used)) ∧
      ∀ k < used, ∃ e, decode (b.take k) = .error e

theorem measure_eq_ok_iff {r : Reader ε α} {b : Bytes} {a : α} {used : Nat} :
    r.measure b = .ok (a, used) ↔
      ∃ rest, r b = (.ok a, rest) ∧ used = b.length - rest.length := by
  unfold measure
  obtain ⟨o, rest⟩ := r b
  cases o with
  | error e =>
    constructor
    · intro h
      cases h
    · rintro ⟨_, h, -⟩
      cases h
  | ok a' =>
    constructor
    · intro h
      cases h
      exact ⟨rest, rfl, rfl⟩
    · rintro ⟨_, h, rfl⟩
      cases h
      rfl

theorem Reads.measure_append {r : Reader ε α} {x : Bytes} {a : α} (h : Reads r x a) (s : Bytes) :
    r.measure (x ++ s) = .ok (a, x.length) :=
  measure_eq_ok_iff.mpr ⟨s, h s, by rw [List.length_append, Nat.add_sub_cancel]⟩

namespace Delimits

/-- **A delimited reader decodes from the front.** -/
theorem isSelfDelimiting {r : Reader ε α} {least : Nat} (h : r.Delimits least) :
    IsSelfDelimiting r.measure := by
  intro b a used hmeasure
  obtain ⟨rest, hread, rfl⟩ := measure_eq_ok_iff.mp hmeasure
  obtain ⟨x, rfl, -, hx⟩ := h _ _ _ hread
  rw [List.length_append, Nat.add_sub_cancel]
  refine ⟨Nat.le_add_right _ _, fun s => ?_, fun k hk => ?_⟩
  · rw [List.take_left]
    exact hx.measure_append s
  · cases hshort : r.measure ((x ++ rest).take k) with
    | error e => exact ⟨e, rfl⟩
    | ok taken =>
      -- What is taken from a part is taken from the whole, and so it is all that is taken.
      obtain ⟨rest', hread', -⟩ := measure_eq_ok_iff.mp hshort
      obtain ⟨y, hy, -, hy'⟩ := h _ _ _ hread'
      have hwhole : x ++ rest = y ++ (rest' ++ (x ++ rest).drop k) := by
        rw [← List.append_assoc, ← hy, List.take_append_drop]
      obtain ⟨-, htail⟩ := hx.unique hy' hwhole
      have htaken := congrArg List.length hwhole
      have hpart := congrArg List.length hy
      rw [← htail] at htaken
      simp only [List.length_append, List.length_take] at htaken hpart
      omega

theorem weaken {r : Reader ε α} {least less : Nat} (h : r.Delimits least) (hle : less ≤ least) :
    r.Delimits less := by
  intro b rest a hread
  obtain ⟨x, hx, hlen, hreads⟩ := h _ _ _ hread
  exact ⟨x, hx, Nat.le_trans hle hlen, hreads⟩

theorem le_length {r : Reader ε α} {least : Nat} (h : r.Delimits least) {b rest : Bytes} {a : α}
    (hread : r b = (.ok a, rest)) : least ≤ b.length := by
  obtain ⟨x, rfl, hlen, -⟩ := h _ _ _ hread
  rw [List.length_append]
  omega

/-! ## Putting readers together -/

theorem pure (a : α) : Delimits (Pure.pure a : Reader ε α) 0 := by
  intro b rest a' h
  cases h
  exact ⟨[], rfl, Nat.le_refl 0, .pure a⟩

theorem fail (e : ε) (least : Nat) : Delimits (Reader.fail e : Reader ε α) least := by
  intro b rest a h
  cases h

theorem bind {r : Reader ε α} {f : α → Reader ε β} {m n : Nat} (hr : r.Delimits m)
    (hf : ∀ a, (f a).Delimits n) : (r >>= f).Delimits (m + n) := by
  intro b rest c h
  obtain ⟨a, mid, ha, hc⟩ := bind_eq_ok h
  obtain ⟨x, rfl, hm, hx⟩ := hr _ _ _ ha
  obtain ⟨y, rfl, hn, hy⟩ := hf a _ _ _ hc
  refine ⟨x ++ y, (List.append_assoc ..).symm, ?_, hx.bind hy⟩
  rw [List.length_append]
  omega

/-- Only the first of two readers is counted. -/
theorem before {r : Reader ε α} {f : α → Reader ε β} {m n : Nat} (hr : r.Delimits m)
    (hf : ∀ a, (f a).Delimits n) : (r >>= f).Delimits m :=
  (hr.bind hf).weaken (Nat.le_add_right m n)

theorem bind_pure {r : Reader ε α} {n : Nat} (hr : r.Delimits n) (g : α → β) :
    (r >>= fun a => Pure.pure (g a)).Delimits n :=
  hr.before fun a => pure (g a)

theorem ite {p : Prop} [Decidable p] {r s : Reader ε α} {n : Nat} (hr : p → r.Delimits n)
    (hs : ¬ p → s.Delimits n) : (if p then r else s).Delimits n := by
  by_cases hp : p
  · rw [if_pos hp]
    exact hr hp
  · rw [if_neg hp]
    exact hs hp

theorem fields {r : Reader ReadError α} {n : Nat} (hr : r.Delimits n) : r.fields.Delimits n := by
  intro b rest a h
  obtain ⟨x, hx, hlen, hreads⟩ := hr _ _ _ (fields_eq_ok h)
  exact ⟨x, hx, hlen, hreads.fields⟩

theorem times {r : Reader ε α} {least : Nat} (hr : r.Delimits least) :
    ∀ n : Nat, (r.times n).Delimits (n * least)
  | 0 => by
    rw [Nat.zero_mul]
    exact pure []
  | n + 1 => by
    rw [Nat.succ_mul, Nat.add_comm (n * least)]
    exact hr.bind fun a => (times hr n).bind_pure (a :: ·)

/-- A guard that fires only when there are fewer bytes than are taken changes nothing. -/
theorem guarded {p : Nat → Prop} [DecidablePred p] {e : Nat → ε} {k : Reader ε α} {least : Nat}
    (hk : k.Delimits least) (hpass : ∀ available, least ≤ available → ¬ p available) :
    Delimits (Reader.remaining >>= fun available =>
      if p available then Reader.fail (e available) else k) least := by
  intro b rest a h
  obtain ⟨available, mid, hleft, hguard⟩ := bind_eq_ok h
  cases hleft
  by_cases hp : p b.length
  · rw [if_pos hp] at hguard
    cases hguard
  rw [if_neg hp] at hguard
  obtain ⟨x, hx, hlen, hreads⟩ := hk _ _ _ hguard
  exact ⟨x, hx, hlen, .guarded (fun available hle => hpass available (Nat.le_trans hlen hle)) hreads⟩

/-! ## Fields -/

theorem take (n : Nat) : (Reader.take n).Delimits n := by
  intro b rest x h
  obtain ⟨rfl, hlen⟩ := take_eq_ok h
  exact ⟨x, rfl, Nat.le_of_eq hlen.symm, .take hlen⟩

theorem fixed (n : Nat) : (Reader.fixed n).Delimits n := by
  intro b rest x h
  obtain rfl := fixed_eq_ok h
  exact ⟨x.bytes, rfl, Nat.le_of_eq x.length_bytes.symm, .fixed x⟩

theorem hash256 : Reader.hash256.Delimits 32 :=
  (fixed 32).bind_pure fun b => Hash256.mk b.bytes b.length_bytes

theorem natLE (width : Nat) : (Reader.natLE width).Delimits width :=
  (take width).bind_pure Bytes.toNatLE

theorem byte : Reader.byte.Delimits 1 :=
  (natLE 1).bind_pure UInt8.ofNat

theorem uint32 : Reader.uint32.Delimits 4 :=
  (natLE 4).bind_pure UInt32.ofNat

theorem int32 : Reader.int32.Delimits 4 :=
  uint32.bind_pure UInt32.toInt32

theorem uint64 : Reader.uint64.Delimits 8 :=
  (natLE 8).bind_pure UInt64.ofNat

theorem varInt : Reader.varInt.Delimits 1 := by
  have hmarked (width : Nat) :
      (Reader.natLE width >>= fun n => Pure.pure (UInt64.ofNat n)).Delimits 0 :=
    ((natLE width).bind_pure UInt64.ofNat).weaken (Nat.zero_le width)
  exact (natLE 1).before fun first => ite (fun _ => pure _) fun _ => ite (fun _ => hmarked 2)
    fun _ => ite (fun _ => hmarked 4) fun _ => hmarked 8

/-- Of data only the number in front is there in any case. -/
theorem varBytes : Reader.varBytes.Delimits 1 := by
  unfold Reader.varBytes Reader.length
  simp only [bind_assoc, ite_fail_bind]
  -- As many bytes are taken as the guard asks for.
  have hguard (declared : UInt64) := (take declared.toNat).guarded
    (e := fun available => ReadError.lengthTooLarge declared.toNat available)
    fun available hle => Nat.not_lt.mpr hle
  exact varInt.before fun declared => (hguard declared).weaken (Nat.zero_le _)

/-! ## Counts and the guards behind them -/

/-- A count and a guard that passes when there are as many bytes as the counted elements take. -/
theorem counted {p : UInt64 → Nat → Prop} [∀ c m, Decidable (p c m)]
    {e : UInt64 → Nat → DecodeError} {k : UInt64 → Reader DecodeError β} {row : UInt64 → Nat}
    {behind : Nat} (hk : ∀ count, (k count).Delimits (row count + behind))
    (hpass : ∀ count available, row count + behind ≤ available → ¬ p count available) :
    Delimits (Reader.varInt.fields >>= fun count => Reader.remaining >>= fun available =>
      if p count available then Reader.fail (e count available) else k count) (1 + behind) :=
  varInt.fields.bind fun count =>
    ((hk count).guarded (hpass count)).weaken (Nat.le_add_left behind (row count))

/-- A row behind its count, and what stands behind the row. -/
theorem elements {r : Reader ReadError α} {least : Nat} {k : List α → Reader DecodeError β}
    {behind : Nat} (hpos : 0 < least) (hr : r.Delimits least)
    (hk : ∀ as, (k as).Delimits behind) :
    (Reader.elementCount least >>= fun n => (r.times n).fields >>= k).Delimits (1 + behind) := by
  unfold Reader.elementCount
  simp only [bind_assoc, ite_fail_bind]
  refine counted (fun count => (hr.times count.toNat).fields.bind hk) fun count available hle => ?_
  rw [Nat.not_lt, Nat.le_div_iff_mul_le hpos]
  exact Nat.le_trans (Nat.le_add_right _ behind) hle

end Delimits

end CashWallet.Reader
