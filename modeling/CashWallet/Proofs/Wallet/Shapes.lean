import CashWallet.Proofs.Json.Record
import CashWallet.Wallet.Reply
import CashWallet.Wallet.TxRecord

/-!
# `CashWallet/Proofs/Wallet/Shapes.lean` — what the wallet writes, it reads back

A signed transaction comes back to the front end as one text inside another: the record in one line,
as the content of a reply. Whoever unpacks them needs the same thing of both, that **reading undoes
writing for every value of the shape** (`shapes_roundTrip`), with no condition on the texts or the
numbers in it.

For each shape there are two facts, and the rest is about JSON: its members are found again
(`ofJson?_toJson`), and it holds nothing that a text could not say (`isMeaningful_toJson`). Only an
input has a member that may be missing.

The shapes are an input, an output, a record and a reply. They are dealt with from the inside out,
since the members of a record include rows of inputs and of outputs. The names of the members of
each are different, which is decided once for each shape, and each member is read back by the lemma
of its kind, so that a member more or less in a shape is one line more or less here.

The text of a reply that holds a record has the text of the record in it as a string, quotes and
all. Nothing has to be said about that: it is a text like any other.
-/

set_option autoImplicit false

namespace CashWallet

open JsonValue

namespace InputRecord

/-- The members of an input by their names; an address that is not known is none of them. -/
def rows (i : InputRecord) : List (String × Option JsonValue) :=
  [("sequence", some (.integer i.sequence.toNat)), ("value", some (.integer i.value.toInt)),
    ("prevHash", some (.string i.prevHash)), ("prevIndex", some (.integer i.prevIndex.toNat)),
    ("pubScript", some (.string i.pubScript)), ("signature", some (.string i.signature)),
    ("address", i.address.map .string)]

theorem toJson_eq (i : InputRecord) : i.toJson = .object (written i.rows) := by
  rw [toJson, rows]
  cases i.address <;> rfl

theorem ofJson?_toJson (i : InputRecord) : ofJson? i.toJson = some i := by
  rw [ofJson?, toJson_eq, fields?_written, Option.bind_eq_bind, Option.bind_some]
  · simp only [rows, List.map_cons, List.map_nil]
    rw [orElse_bind (asUInt32_integer _), orElse_bind (asInt64_integer _),
      orElse_bind (asString_string _), orElse_bind (asUInt32_integer _),
      orElse_bind (asString_string _), orElse_bind (asString_string _), orElse_bind_optional]
    rfl
  · rfl
  · decide

theorem isMeaningful_toJson (i : InputRecord) : i.toJson.IsMeaningful := by
  have haddress : ∀ v ∈ i.address.map JsonValue.string, v.IsMeaningful := by
    intro v hv
    obtain ⟨a, _, rfl⟩ := Option.map_eq_some_iff.mp hv
    exact .string a
  rw [toJson_eq]
  refine isMeaningful_written ?_
  simp only [rows, List.forall_mem_cons, Option.mem_some_iff, forall_eq']
  exact ⟨.integer _, .integer _, .string _, .integer _, .string _, .string _, haddress,
    fun _ h => absurd h List.not_mem_nil⟩

end InputRecord

namespace OutputRecord

theorem ofJson?_toJson (o : OutputRecord) : ofJson? o.toJson = some o := by
  rw [ofJson?, toJson, fields?_object, Option.bind_eq_bind, Option.bind_some]
  · simp only [List.map_cons, List.map_nil]
    rw [orElse_bind (asInt64_integer _), orElse_bind (asBool_bool _),
      orElse_bind (asString_string _), orElse_bind (asString_string _)]
    rfl
  · rfl
  · decide

theorem isMeaningful_toJson (o : OutputRecord) : o.toJson.IsMeaningful := by
  refine .object ?_
  simp only [List.forall_mem_cons]
  exact ⟨.integer _, .bool _, .string _, .string _, fun _ h => absurd h List.not_mem_nil⟩

end OutputRecord

namespace TxRecord

theorem ofJson?_toJson (t : TxRecord) : ofJson? t.toJson = some t := by
  have hinputs : asList InputRecord.ofJson? (.array (t.inputs.map InputRecord.toJson)) =
      some t.inputs := asList_array fun i _ => InputRecord.ofJson?_toJson i
  have houtputs : asList OutputRecord.ofJson? (.array (t.outputs.map OutputRecord.toJson)) =
      some t.outputs := asList_array fun o _ => OutputRecord.ofJson?_toJson o
  rw [ofJson?, toJson, fields?_object, Option.bind_eq_bind, Option.bind_some]
  · simp only [List.map_cons, List.map_nil]
    rw [orElse_bind (asString_string _), orElse_bind (asInt64_integer _),
      orElse_bind (asInt32_integer _), orElse_bind (asInt32_integer _),
      orElse_bind (asInt32_integer _), orElse_bind (asInt32_integer _),
      orElse_bind (asUInt32_integer _), orElse_bind hinputs, orElse_bind houtputs,
      orElse_bind (asInt64_integer _), orElse_bind (asInt64_integer _),
      orElse_bind (asInt64_integer _), orElse_bind (asInt64_integer _)]
    rfl
  · rfl
  · decide

theorem isMeaningful_toJson (t : TxRecord) : t.toJson.IsMeaningful := by
  have hinputs : (JsonValue.array (t.inputs.map InputRecord.toJson)).IsMeaningful :=
    .array (List.forall_mem_map.mpr fun i _ => i.isMeaningful_toJson)
  have houtputs : (JsonValue.array (t.outputs.map OutputRecord.toJson)).IsMeaningful :=
    .array (List.forall_mem_map.mpr fun o _ => o.isMeaningful_toJson)
  refine .object ?_
  simp only [List.forall_mem_cons]
  exact ⟨.string _, .integer _, .integer _, .integer _, .integer _, .integer _, .integer _,
    hinputs, houtputs, .integer _, .integer _, .integer _, .integer _,
    fun _ h => absurd h List.not_mem_nil⟩

end TxRecord

namespace Reply

theorem ofJson?_toJson (r : Reply) : ofJson? r.toJson = some r := by
  rw [ofJson?, toJson, fields?_object, Option.bind_eq_bind, Option.bind_some]
  · simp only [List.map_cons, List.map_nil]
    rw [orElse_bind (asInt32_integer _), orElse_bind (asString_string _),
      orElse_bind (asString_string _)]
    rfl
  · rfl
  · decide

theorem isMeaningful_toJson (r : Reply) : r.toJson.IsMeaningful := by
  refine .object ?_
  simp only [List.forall_mem_cons]
  exact ⟨.integer _, .string _, .string _, fun _ h => absurd h List.not_mem_nil⟩

theorem parse?_pretty (r : Reply) : parse? r.pretty = some r := by
  rw [parse?, pretty, parse_pretty r.isMeaningful_toJson, Option.bind_some, ofJson?_toJson]

theorem parse?_compact (r : Reply) : parse? r.compact = some r := by
  rw [parse?, compact, parse_compact r.isMeaningful_toJson, Option.bind_some, ofJson?_toJson]

end Reply

/-- **Every record that is written is read back**, and so is every reply, in either layout. -/
theorem shapes_roundTrip :
    (∀ t : TxRecord, TxRecord.parse t.render = .ok t) ∧
      ∀ r : Reply, Reply.parse? r.pretty = some r ∧ Reply.parse? r.compact = some r := by
  refine ⟨fun t => ?_, fun r => ⟨r.parse?_pretty, r.parse?_compact⟩⟩
  rw [TxRecord.parse, TxRecord.render, parse_compact t.isMeaningful_toJson, Option.bind_some,
    TxRecord.ofJson?_toJson]

end CashWallet
