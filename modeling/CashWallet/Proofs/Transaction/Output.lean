import CashWallet.Proofs.Transaction.Codec
import CashWallet.Proofs.Transaction.Token

/-!
# `CashWallet/Proofs/Transaction/Output.lean` — what is kept beside an output is read off its lock

A token is taken off the front of a locking script in two places: where an output is made, for the
token and the address that are kept beside the script, and where the lock behind the token is asked
for. The first looks for the marker and keeps nothing when what follows it is not a token; the
second tries to read a token and takes the whole script when there is none. **Both mean the same
lock** (`TxOutput.derive_agrees`): without the marker no token is read, and with the marker and no
token the whole script is left, which pays nobody because it still begins with the marker.

So there are two cases and no third. Either a token is read, and then both take the lock to be what
stands behind it; or none is read, and then both take it to be the whole script. Everything about
what is kept beside an output is said by these two cases, once for each of its parts.

Only one token is taken off. What stands behind it may begin with the marker again, and then it is a
lock that pays nobody, even if there is a lock to a key behind it.
-/

set_option autoImplicit false

namespace CashWallet

/-- A token is read only behind the marker. -/
theorem CashToken.hasTokenMarker_of_split {script : Bytes} {t : CashToken} {rest : Bytes}
    (h : split script = .ok (t, rest)) : Script.hasTokenMarker ⟨script⟩ = true := by
  obtain ⟨-, length, amount, -, rfl⟩ := split_eq_ok h
  exact beq_iff_eq.mpr rfl

/-- A token takes something off the script. -/
theorem CashToken.length_lt_of_split {script : Bytes} {t : CashToken} {rest : Bytes}
    (h : split script = .ok (t, rest)) : rest.length < script.length := by
  obtain ⟨-, length, amount, -, rfl⟩ := split_eq_ok h
  rw [encodeIn, List.cons_append, List.length_cons, List.length_append]
  omega

/-- A script that begins with the marker pays nobody. -/
theorem Script.payees_of_hasTokenMarker {s : Script} (h : s.hasTokenMarker = true)
    (label : String) : s.payees label = [] := by
  have hclass : s.classify = .nonstandard := by
    rw [classify, if_pos h]
  rw [payees, hclass]

namespace TxOutput

variable {locking : Script} {t : CashToken} {rest : Bytes}

/-- Where a token is read, it is kept, with the first address that the rest pays to. -/
theorem inspect_of_split (h : CashToken.split locking.bytes = .ok (t, rest)) (label : String) :
    inspect label locking = (some t, (Script.payees label ⟨rest⟩).head?) := by
  rw [inspect, if_pos (CashToken.hasTokenMarker_of_split h), h]

/-- Where no token is read, nothing is kept but the first address that the whole script pays to, be
the marker there or not. -/
theorem inspect_of_split_error {e : DecodeError} (h : CashToken.split locking.bytes = .error e)
    (label : String) : inspect label locking = (none, (Script.payees label locking).head?) := by
  by_cases hmarker : locking.hasTokenMarker = true
  · rw [inspect, if_pos hmarker, h, Script.payees_of_hasTokenMarker hmarker]
    rfl
  · rw [inspect, if_neg hmarker]

/-! ## The two ways to take a token off -/

theorem locking_derive (label : String) (value : UInt64) (locking : Script) :
    (derive label value locking).locking = locking := rfl

theorem spendingCondition_of_split (h : CashToken.split locking.bytes = .ok (t, rest))
    (label : String) (value : UInt64) :
    (derive label value locking).spendingCondition = ⟨rest⟩ := by
  rw [spendingCondition, locking_derive, h]

theorem spendingCondition_of_split_error {e : DecodeError}
    (h : CashToken.split locking.bytes = .error e) (label : String) (value : UInt64) :
    (derive label value locking).spendingCondition = locking := by
  rw [spendingCondition, locking_derive, h]

/-- The lock is the end of the script, and the whole of it exactly when no token is read. -/
theorem spendingCondition_suffix (label : String) (value : UInt64) (locking : Script) :
    (derive label value locking).spendingCondition.bytes <:+ locking.bytes ∧
      ((derive label value locking).spendingCondition = locking ↔
        ∃ e, CashToken.split locking.bytes = .error e) := by
  cases hsplit : CashToken.split locking.bytes with
  | error e =>
    rw [spendingCondition_of_split_error hsplit]
    exact ⟨List.suffix_refl _, iff_of_true rfl ⟨e, rfl⟩⟩
  | ok taken =>
    obtain ⟨t, rest⟩ := taken
    rw [spendingCondition_of_split hsplit]
    obtain ⟨-, length, amount, -, hscript⟩ := CashToken.split_eq_ok hsplit
    refine ⟨⟨_, hscript.symm⟩, iff_of_false (fun hwhole => ?_) ?_⟩
    · have hlt := CashToken.length_lt_of_split hsplit
      rw [← hwhole] at hlt
      exact Nat.lt_irrefl _ hlt
    · rintro ⟨e, he⟩
      cases he

theorem token_eq_some_iff (label : String) (value : UInt64) :
    (derive label value locking).token = some t ↔
      ∃ rest, CashToken.split locking.bytes = .ok (t, rest) := by
  show (inspect label locking).1 = some t ↔ _
  cases hsplit : CashToken.split locking.bytes with
  | error e =>
    rw [inspect_of_split_error hsplit]
    exact iff_of_false nofun fun ⟨_, h⟩ => nomatch h
  | ok taken =>
    obtain ⟨t', rest⟩ := taken
    rw [inspect_of_split hsplit]
    constructor
    · intro h
      cases h
      exact ⟨rest, rfl⟩
    · rintro ⟨_, h⟩
      cases h
      rfl

theorem address_eq (label : String) (value : UInt64) (locking : Script) :
    (derive label value locking).address =
      (Script.payees label (derive label value locking).spendingCondition).head? := by
  show (inspect label locking).2 = _
  cases hsplit : CashToken.split locking.bytes with
  | error e => rw [inspect_of_split_error hsplit, spendingCondition_of_split_error hsplit]
  | ok taken => rw [inspect_of_split hsplit, spendingCondition_of_split hsplit]

/-- **What is kept beside an output and the lock that it is spent by agree.** The lock is the end
of the script that travels, and the whole script exactly when no token can be read off its front.
The token that is kept is the one that can be read, and the address that is kept is the first that
the lock pays to. Whoever reads the written output under the same label finds the output with the
same token and address, as long as 64 bits hold the length of the script. -/
theorem derive_agrees (label : String) (value : UInt64) (locking : Script) :
    (derive label value locking).spendingCondition.bytes <:+ locking.bytes ∧
      ((derive label value locking).spendingCondition = locking ↔
        ∃ e, CashToken.split locking.bytes = .error e) ∧
      (∀ t, (derive label value locking).token = some t ↔
        ∃ rest, CashToken.split locking.bytes = .ok (t, rest)) ∧
      (derive label value locking).address =
        (Script.payees label (derive label value locking).spendingCondition).head? ∧
      (locking.size < UInt64.size → ∀ rest,
        read label ((derive label value locking).encode ++ rest) =
          (.ok (derive label value locking), rest)) := by
  obtain ⟨hsuffix, hwhole⟩ := spendingCondition_suffix label value locking
  have hconsistent : (derive label value locking).IsConsistent label := rfl
  exact ⟨hsuffix, hwhole, fun t => token_eq_some_iff label value, address_eq label value locking,
    fun hfit => reads hconsistent hfit⟩

/-- A fungible token. -/
def sampleToken : CashToken :=
  ⟨.zero, TokenFlag.amount, none, [], 100⟩

/-- A token behind a token. -/
def twiceMarked : Script :=
  ⟨sampleToken.encode ++ (sampleToken.encode ++ [Opcode.op1])⟩

/-- A token whose amount is missing. -/
def cutShort : Script :=
  ⟨sampleToken.encode.dropLast⟩

/-- Behind the first of two tokens stands a script that pays nobody, and one that ends within a
token is left whole and pays nobody. -/
theorem derive_agrees_twiceMarked :
    (derive "bitcoincash" 1000 twiceMarked).token = some sampleToken ∧
      (derive "bitcoincash" 1000 twiceMarked).address = none ∧
      (derive "bitcoincash" 1000 cutShort).spendingCondition = cutShort ∧
      (derive "bitcoincash" 1000 cutShort).address = none ∧
      twiceMarked.size < UInt64.size ∧
      read "bitcoincash" ((derive "bitcoincash" 1000 twiceMarked).encode ++ [0xff]) =
        (.ok (derive "bitcoincash" 1000 twiceMarked), [0xff]) := by
  obtain ⟨-, -, htoken, haddress, hread⟩ := derive_agrees "bitcoincash" 1000 twiceMarked
  obtain ⟨-, hwhole, -, hnobody, -⟩ := derive_agrees "bitcoincash" 1000 cutShort
  have hsplit : CashToken.split twiceMarked.bytes =
      .ok (sampleToken, sampleToken.encode ++ [Opcode.op1]) := rfl
  have hcut : ∃ e, CashToken.split cutShort.bytes = .error e := ⟨_, rfl⟩
  have hleft := hwhole.mpr hcut
  have hsize : twiceMarked.size < UInt64.size := by decide
  refine ⟨(htoken _).mpr ⟨_, hsplit⟩, ?_, hleft, ?_, hsize, hread hsize _⟩
  · rw [haddress, spendingCondition_of_split hsplit]
    rfl
  · rw [hnobody, hleft]
    rfl

end TxOutput

end CashWallet
