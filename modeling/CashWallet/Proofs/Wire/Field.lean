import CashWallet.Bytes.Digits
import CashWallet.Proofs.Text.Utf8
import CashWallet.Proofs.Wire.Reading
import CashWallet.Wire.Field

/-!
# `CashWallet/Proofs/Wire/Field.lean` — fields are read back

One lemma for every kind of field: its reader takes the bytes that are written for a value and
yields the value. A number comes back because its digits are as many as its type has
(`Reads.natLE`); a length comes back when 64 bits hold it, and a text when it does not end in the
zeros that are taken for padding.

Numbers with a sign travel as the bits that they have without one, and no bound is asked for: every
value of the type has its digits. The condition on lengths is of another kind. A length is the
number of bytes that there are, which is not bounded by any type here, while its field is.

The count in front of a row stands between its number and the elements, and is guarded by how much
is left. That the guard passes is known where the elements are known, so it is a hypothesis about
them (`Reads.counted`).
-/

set_option autoImplicit false

namespace CashWallet.Reader.Reads

/-! ## Byte strings and numbers of a fixed width -/

theorem take {n : Nat} {x : Bytes} (h : x.length = n) : Reads (Reader.take n) x x := by
  subst h
  exact take_append x

theorem fixed {n : Nat} (x : FixedBytes n) : Reads (Reader.fixed n) x.bytes x := by
  intro rest
  obtain ⟨bytes, rfl⟩ := x
  simp only [Reader.fixed, List.take_left, List.drop_left]
  exact dif_neg (Nat.lt_irrefl _)

theorem hash256 (h : Hash256) : Reads Reader.hash256 h.bytes h :=
  (fixed ⟨h.bytes, h.length_bytes⟩).bind_pure fun b => Hash256.mk b.bytes b.length_bytes

theorem natLE (width : Nat) {n : Nat} (h : n < 256 ^ width) :
    Reads (Reader.natLE width) (Bytes.ofNatLE width n) n := by
  have hread := (take (Bytes.length_ofNatLE width n)).bind_pure Bytes.toNatLE
  rwa [Bytes.toNatLE_ofNatLE width n h] at hread

theorem byte (v : UInt8) : Reads Reader.byte [v] v := by
  have hdigits : Bytes.ofNatLE 1 v.toNat = [v] := by
    simp [Bytes.ofNatLE]
  have hread := (natLE 1 v.toNat_lt).bind_pure UInt8.ofNat
  rwa [UInt8.ofNat_toNat, hdigits] at hread

theorem uint16 (v : UInt16) : Reads Reader.uint16 (Bytes.ofNatLE 2 v.toNat) v := by
  have hread := (natLE 2 v.toNat_lt).bind_pure UInt16.ofNat
  rwa [UInt16.ofNat_toNat] at hread

theorem uint16BE (v : UInt16) : Reads Reader.uint16BE (Bytes.ofNatBE 2 v.toNat) v := by
  have hread := (take (Bytes.length_ofNatBE 2 v.toNat)).bind_pure
    fun b => UInt16.ofNat (Bytes.toNatBE b)
  rwa [Bytes.toNatBE_ofNatBE 2 _ v.toNat_lt, UInt16.ofNat_toNat] at hread

theorem uint32 (v : UInt32) : Reads Reader.uint32 (Bytes.ofNatLE 4 v.toNat) v := by
  have hread := (natLE 4 v.toNat_lt).bind_pure UInt32.ofNat
  rwa [UInt32.ofNat_toNat] at hread

theorem int32 (v : Int32) : Reads Reader.int32 (Bytes.ofNatLE 4 v.toUInt32.toNat) v := by
  have hread := (uint32 v.toUInt32).bind_pure UInt32.toInt32
  rwa [Int32.toInt32_toUInt32] at hread

theorem uint64 (v : UInt64) : Reads Reader.uint64 (Bytes.ofNatLE 8 v.toNat) v := by
  have hread := (natLE 8 v.toNat_lt).bind_pure UInt64.ofNat
  rwa [UInt64.ofNat_toNat] at hread

theorem int64 (v : Int64) : Reads Reader.int64 (Bytes.ofNatLE 8 v.toUInt64.toNat) v := by
  have hread := (uint64 v.toUInt64).bind_pure UInt64.toInt64
  rwa [Int64.toInt64_toUInt64] at hread

/-! ## Numbers of a width of their own -/

/-- The shortest form of a value is read as the value. -/
theorem varInt (v : UInt64) : Reads Reader.varInt (VarInt.encode v) v := by
  have hv := v.toNat_lt
  have hback : UInt64.ofNat v.toNat = v := UInt64.ofNat_toNat
  unfold VarInt.encode Reader.varInt
  by_cases h1 : v.toNat < 0xfd
  · rw [if_pos h1]
    refine (natLE 1 (show v.toNat < 256 ^ 1 by omega)).bind_last ?_
    rw [if_pos h1, hback]
    exact pure v
  rw [if_neg h1]
  by_cases h2 : v.toNat ≤ 0xffff
  · rw [if_pos h2]
    refine (natLE 1 (n := 0xfd) (by decide)).bind ?_
    have hread := (natLE 2 (show v.toNat < 256 ^ 2 by omega)).bind_pure UInt64.ofNat
    rwa [hback] at hread
  rw [if_neg h2]
  by_cases h3 : v.toNat ≤ 0xffffffff
  · rw [if_pos h3]
    refine (natLE 1 (n := 0xfe) (by decide)).bind ?_
    have hread := (natLE 4 (show v.toNat < 256 ^ 4 by omega)).bind_pure UInt64.ofNat
    rwa [hback] at hread
  · rw [if_neg h3]
    refine (natLE 1 (n := 0xff) (by decide)).bind ?_
    have hread := (natLE 8 (show v.toNat < 256 ^ 8 by omega)).bind_pure UInt64.ofNat
    rwa [hback] at hread

theorem ofCount (n : Nat) : Reads Reader.varInt (VarInt.ofCount n) (UInt64.ofNat n) :=
  varInt (UInt64.ofNat n)

/-- A count is read, and a guard that the bytes behind it keep from firing is passed. -/
theorem counted {β : Type} {n : Nat} {p : UInt64 → Nat → Prop} [∀ c m, Decidable (p c m)]
    {e : UInt64 → Nat → DecodeError} {k : UInt64 → Reader DecodeError β} {x : Bytes} {b : β}
    (hn : n < UInt64.size)
    (h : ∀ count : UInt64, count.toNat = n →
      (∀ available, x.length ≤ available → ¬ p count available) ∧ Reads (k count) x b) :
    Reads (Reader.varInt.fields >>= fun count => Reader.remaining >>= fun available =>
      if p count available then fail (e count available) else k count)
      (VarInt.ofCount n ++ x) b := by
  obtain ⟨hpass, hk⟩ := h (UInt64.ofNat n) (UInt64.toNat_ofNat_of_lt' hn)
  exact (ofCount n).fields.bind (guarded hpass hk)

/-- Data comes back when the number in front can say how long it is. -/
theorem varBytes {b : Bytes} (h : b.length < UInt64.size) :
    Reads Reader.varBytes (CashWallet.varBytes b) b := by
  have hcount : (UInt64.ofNat b.length).toNat = b.length := UInt64.toNat_ofNat_of_lt' h
  unfold Reader.varBytes Reader.length
  simp only [bind_assoc, ite_fail_bind]
  refine (ofCount b.length).bind ?_
  rw [hcount]
  exact guarded (fun available hle => Nat.not_lt.mpr hle) (take rfl)

/-- A text comes back when it has no padding of its own. -/
theorem varText {s : String} (hlen : (Text.utf8 s).length < UInt64.size)
    (hend : s.toList.getLast? ≠ some '\x00') :
    Reads Reader.varText (CashWallet.varText s) s := by
  have hread := (varBytes hlen).bind_pure paddedText
  rwa [paddedText_utf8_of_getLast? hend] at hread

end CashWallet.Reader.Reads
