import CashWallet.Json.Record
import CashWallet.Proofs.Json.Value

/-!
# `CashWallet/Proofs/Json/Record.lean` — members are found under their names

A record is written member by member, some of which may be left out, and read by a list of names.
**The reader gets back exactly what was written, and nothing where something was left out**
(`fields?_written`): the names are different, so a name stands for one member at most. Whatever a
member holds, reading it undoes writing it; numbers are written without their size, and the size of
the field they came from is the range that the reader asks for.

So what is to be shown of a record comes apart into facts that know nothing of one another: that its
names are different, which is decided once for each record, and that each of its members is read
back, which is one of the lemmas at the end. They are all stated for the readers of members as they
stand in a record, and close one step of its `do` each.
-/

set_option autoImplicit false

namespace CashWallet.JsonValue

/-! ## Members that may be left out -/

/-- The members of a record, without those that have no value. -/
def written (rows : List (String × Option JsonValue)) : List (String × JsonValue) :=
  rows.filterMap fun r => r.2.map fun v => (r.1, v)

theorem filter_written_eq_nil {rows : List (String × Option JsonValue)} {name : String}
    (h : name ∉ rows.map Prod.fst) : (written rows).filter (fun m => m.1 == name) = [] := by
  rw [List.filter_eq_nil_iff]
  intro m hm heq
  obtain ⟨r, hr, hrm⟩ := List.mem_filterMap.mp hm
  obtain ⟨v, _, rfl⟩ := Option.map_eq_some_iff.mp hrm
  exact h (eq_of_beq heq ▸ List.mem_map_of_mem hr)

/-- What is found under a name is the one member that was written under it, if it was written. -/
theorem filter_written {rows : List (String × Option JsonValue)}
    (hnames : (rows.map Prod.fst).Nodup) {row : String × Option JsonValue} (hrow : row ∈ rows) :
    (written rows).filter (fun m => m.1 == row.1) = (row.2.map fun v => (row.1, v)).toList := by
  induction rows with
  | nil => exact absurd hrow List.not_mem_nil
  | cons r rows ih =>
    rw [List.map_cons, List.nodup_cons] at hnames
    have hcons : written (r :: rows) = written [r] ++ written rows := by
      rw [written, ← List.singleton_append, List.filterMap_append, written, written]
    rw [hcons, List.filter_append]
    rcases List.mem_cons.mp hrow with rfl | hrow
    · rw [filter_written_eq_nil hnames.1, List.append_nil, written, List.filterMap_cons]
      cases row.2 with
      | none => rfl
      | some v => exact List.filter_cons_of_pos (beq_self_eq_true row.1)
    · have hne : row.1 ∉ [r].map Prod.fst := fun h =>
        hnames.1 (List.mem_singleton.mp h ▸ List.mem_map_of_mem hrow)
      rw [filter_written_eq_nil hne, List.nil_append, ih hnames.2 hrow]

/-- **The values are found in the order of the names**, whatever was left out. -/
theorem fields?_written {names : List String} {rows : List (String × Option JsonValue)}
    (hrows : rows.map Prod.fst = names) (hnames : names.Nodup) :
    fields? names (object (written rows)) = some (rows.map Prod.snd) := by
  subst hrows
  rw [fields?]
  refine mapM_map_eq_some fun row hrow => ?_
  rw [filter_written hnames hrow]
  cases row.2 <;> rfl

/-- Where every member has a value, the values are found in the order of the names. -/
theorem fields?_object {names : List String} {members : List (String × JsonValue)}
    (hmembers : members.map Prod.fst = names) (hnames : names.Nodup) :
    fields? names (object members) = some (members.map fun m => some m.2) := by
  have hwritten : written (members.map fun m => (m.1, some m.2)) = members := by
    rw [written, List.filterMap_map]
    exact List.filterMap_some
  have hrows : (members.map fun m => (m.1, some m.2)).map Prod.fst = names := by
    rw [List.map_map]
    exact hmembers
  have hfields := fields?_written hrows hnames
  rwa [hwritten, List.map_map] at hfields

theorem isMeaningful_written {rows : List (String × Option JsonValue)}
    (h : ∀ r ∈ rows, ∀ v ∈ r.2, v.IsMeaningful) : (object (written rows)).IsMeaningful := by
  refine .object fun m hm => ?_
  obtain ⟨r, hr, hrm⟩ := List.mem_filterMap.mp hm
  obtain ⟨v, hv, rfl⟩ := Option.map_eq_some_iff.mp hrm
  exact h r hr v hv

/-! ## What a member holds -/

section

variable {α β : Type} {f : α → Option β}

/-- A member that is there is read, and then the rest of the record. -/
theorem orElse_bind {default : α} {read : JsonValue → Option α} {v : JsonValue} {a : α}
    (h : read v = some a) : (orElse default read (some v) >>= f) = f a := by
  rw [orElse, h, Option.bind_eq_bind, Option.bind_some]

theorem orElse_bind_optional {f : Option String → Option β} (s : Option String) :
    (orElse none asOptionalString (s.map string) >>= f) = f s := by
  cases s <;> rfl

end

theorem asString_string (s : String) : asString (string s) = some s :=
  rfl

theorem asBool_bool (b : Bool) : asBool (bool b) = some b :=
  rfl

/-- A number in range is read as itself. -/
theorem asIntegerIn_integer {least greatest n : Int} (h : least ≤ n ∧ n ≤ greatest) :
    asIntegerIn least greatest (integer n) = some n := by
  rw [asIntegerIn, if_pos h]

theorem asUInt32_integer (n : UInt32) : asUInt32 (integer n.toNat) = some n := by
  have hn := n.toNat_lt
  rw [asUInt32, asIntegerIn_integer ⟨by omega, by rw [UInt32.size]; omega⟩, Option.map_some,
    Int.toNat_natCast, UInt32.ofNat_toNat]

theorem asInt32_integer (n : Int32) : asInt32 (integer n.toInt) = some n := by
  rw [asInt32, asIntegerIn_integer ⟨Int32.minValue_le_toInt n, Int32.toInt_le n⟩, Option.map_some,
    Int32.ofInt_toInt]

theorem asInt64_integer (n : Int64) : asInt64 (integer n.toInt) = some n := by
  rw [asInt64, asIntegerIn_integer ⟨Int64.minValue_le_toInt n, Int64.toInt_le n⟩, Option.map_some,
    Int64.ofInt_toInt]

theorem asList_array {α : Type} {read : JsonValue → Option α} {write : α → JsonValue} {l : List α}
    (h : ∀ a ∈ l, read (write a) = some (id a)) : asList read (array (l.map write)) = some l := by
  rw [asList, mapM_map_eq_some h, List.map_id]

end CashWallet.JsonValue
