import CashWallet.Proofs.Wire.Field
import Mathlib.Data.List.DropRight

/-!
# `CashWallet/Proofs/Wire/Row.lean` — rows of fields are read back

A message is written field after field and read kind after kind. Nothing stands between two fields,
so a read that took a byte too few or too many would spoil every field behind it. **Reading the
kinds of a row takes exactly what was written for it**, in whatever order the fields come and
whatever stands behind them (`FieldKind.readAll_encodeAll`).

One field is enough for that (`Field.reads`): what it takes does not depend on what follows, so the
row is an induction along its fields. Only a text does not come back as it was, for the zeros at its
end are taken for padding.

A kind knows how to read its fields, and a field knows its kind and how it is written. So a new kind
of field is one more case in `Field.reads`, and rows need not be looked at again. Rows of every
length are meant, the empty one too, which takes nothing.

The condition on a field is that the number in front of it can tell how long it is (`Field.Fits`).
It is asked of data and of texts; the fields of a fixed width always fit.
-/

set_option autoImplicit false

namespace CashWallet

/-- A row of readers takes the concatenation of what each of them takes. -/
theorem Reader.Reads.mapM {ε α β : Type} {r : α → Reader ε β} {enc : α → Bytes} {val : α → β} :
    ∀ {as : List α}, (∀ a ∈ as, Reads (r a) (enc a) (val a)) →
      Reads (as.mapM r) (as.flatMap enc) (as.map val)
  | [], _ => pure []
  | a :: as, h => by
    have hrow := mapM fun a' ha' => h a' (List.mem_cons_of_mem a ha')
    rw [List.mapM_cons, List.flatMap_cons, List.map_cons]
    exact (h a List.mem_cons_self).bind (hrow.bind_pure (val a :: ·))

/-- A text comes back without the zeros at its end. -/
theorem Reader.Reads.varText_unpadded {s : String} (h : (Text.utf8 s).length < UInt64.size) :
    Reads Reader.varText (CashWallet.varText s)
      (String.ofList (s.toList.rdropWhile (· == '\x00'))) := by
  have hread := (varBytes h).bind_pure paddedText
  rwa [paddedText_utf8] at hread

namespace Field

/-- The field without what is taken for padding: the zeros at the end of a text. -/
def unpadded : Field → Field
  | varText s => .varText (String.ofList (s.toList.rdropWhile (· == '\x00')))
  | f => f

/-- The length in front of the field, if there is one, can tell how long it is. A string that has a
place in memory is never longer. -/
def Fits : Field → Prop
  | varBytes b => b.length < UInt64.size
  | varText s => (Text.utf8 s).length < UInt64.size
  | _ => True

/-- **A field is read by its kind**, whatever stands behind it. -/
theorem reads {f : Field} (h : f.Fits) : Reader.Reads f.kind.read f.encode f.unpadded := by
  cases f with
  | uint8 v => exact (Reader.Reads.byte v).bind_pure Field.uint8
  | uint16 v => exact (Reader.Reads.uint16 v).bind_pure Field.uint16
  | uint16BE v => exact (Reader.Reads.uint16BE v).bind_pure Field.uint16BE
  | uint32 v => exact (Reader.Reads.uint32 v).bind_pure Field.uint32
  | int32 v => exact (Reader.Reads.int32 v).bind_pure Field.int32
  | uint64 v => exact (Reader.Reads.uint64 v).bind_pure Field.uint64
  | int64 v => exact (Reader.Reads.int64 v).bind_pure Field.int64
  | varInt v => exact (Reader.Reads.varInt v).bind_pure Field.varInt
  | bytes b => exact (Reader.Reads.take rfl).bind_pure Field.bytes
  | varBytes b =>
    have hsize : b.length < UInt64.size := h
    exact (Reader.Reads.varBytes hsize).bind_pure Field.varBytes
  | varText s =>
    have hsize : (Text.utf8 s).length < UInt64.size := h
    exact (Reader.Reads.varText_unpadded hsize).bind_pure Field.varText
  | hash x => exact (Reader.Reads.hash256 x).bind_pure Field.hash

end Field

namespace FieldKind

/-- Reads one field of each kind, and stops at the first that cannot be read. -/
def readAll (kinds : List FieldKind) : Reader ReadError (List Field) :=
  kinds.mapM read

theorem reads_row {fields : List Field} (h : ∀ f ∈ fields, f.Fits) :
    Reader.Reads (readAll (fields.map Field.kind)) (Field.encodeAll fields)
      (fields.map Field.unpadded) := by
  rw [readAll, List.mapM_map]
  exact .mapM fun f hf => Field.reads (h f hf)

/-- **Rows of fields are read back**: every field of the row is read, in order, and what stands
behind the row is left. -/
theorem readAll_encodeAll {fields : List Field} (h : ∀ f ∈ fields, f.Fits) (rest : Bytes) :
    (readAll (fields.map Field.kind)).run (Field.encodeAll fields ++ rest) =
      (.ok (fields.map Field.unpadded), rest) :=
  reads_row h rest

/-- One field of every kind, among them a text that ends in zeros. -/
def everyKind : List Field :=
  [.uint8 0xab, .uint16 0x1234, .uint16BE 8333, .uint32 0xdeadbeef, .int32 (-2),
    .uint64 0x0102030405060708, .int64 (-1), .varInt 300, .bytes [0xfd, 0xff],
    .varBytes (List.replicate 300 0), .varText "/node\x00/\x00\x00", .hash .zero]

theorem readAll_encodeAll_everyKind :
    (∀ f ∈ everyKind, f.Fits) ∧ Field.unpadded (.varText "/node\x00/\x00\x00") =
        .varText "/node\x00/" ∧
      (readAll (everyKind.map Field.kind)).run (Field.encodeAll everyKind ++ [0xfd]) =
        (.ok (everyKind.map Field.unpadded), [0xfd]) := by
  have hfits : ∀ f ∈ everyKind, f.Fits := by
    simp only [everyKind, List.forall_mem_cons, Field.Fits, List.length_replicate, true_and]
    exact ⟨by decide, by decide, fun _ h => absurd h List.not_mem_nil⟩
  exact ⟨hfits, by decide, readAll_encodeAll hfits [0xfd]⟩

end FieldKind

end CashWallet
