import CashWallet.Proofs.Json.Text
import Mathlib.Data.List.Forall2

/-!
# `CashWallet/Proofs/Json/Value.lean` — a value is read as it was written

**A meaningful value is what its own text says**, in one line or one member a line (`parse_compact`,
`parse_pretty`). Both layouts put blanks only where the reader skips them, so nothing below speaks
of a layout: a row may have any blanks in front of each piece and any behind the last, and a member
any between its colon and its value. There is one lemma for each kind of value, and one walk down
the value for each layout.

What is read before something else must not depend on it. `IsReadAs` says so at once for every
continuation and for all fuel that reaches the end of the characters; the one continuation that
could go wrong is a digit, a point or an exponent behind a number, and rows and records never write
one.

Fuel is counted in characters. Each value spends one unit on itself and has at least one character
for it (`isReadAs_cons`), and each piece of a row spends one for itself and has a separator or a
bracket, so that the fuel left is always more than the characters that are left. No lemma has a
number in it.

Values that are foreign are left out (`IsMeaningful`): they have no text of their own, and a wallet
writes none.
-/

set_option autoImplicit false

namespace CashWallet.JsonValue

/-! ## Blanks -/

/-- Nothing but blanks. -/
def AllBlank (cs : List Char) : Prop :=
  ∀ c ∈ cs, isBlank c = true

theorem allBlank_nil : AllBlank [] :=
  fun _ h => absurd h List.not_mem_nil

theorem allBlank_lineBreak (level : Nat) : AllBlank (lineBreak level) := by
  intro c hc
  rcases List.mem_cons.mp hc with rfl | hc
  · rfl
  · rw [List.eq_of_mem_replicate hc]
    rfl

theorem skipBlanks_append {blanks : List Char} (h : AllBlank blanks) (cs : List Char) :
    skipBlanks (blanks ++ cs) = skipBlanks cs :=
  List.dropWhile_append_of_pos h

theorem skipBlanks_cons {c : Char} (h : isBlank c = false) (cs : List Char) :
    skipBlanks (c :: cs) = c :: cs :=
  List.dropWhile_cons_of_neg (by rw [h]; exact Bool.false_ne_true)

theorem skipBlanks_append_cons {blanks : List Char} (h : AllBlank blanks) {c : Char}
    (hc : isBlank c = false) (cs : List Char) :
    skipBlanks (blanks ++ c :: cs) = c :: cs := by
  rw [skipBlanks_append h, skipBlanks_cons hc]

/-- Blanks in front of a value are skipped. -/
theorem readValue_append {blanks : List Char} (h : AllBlank blanks) (fuel : Nat)
    (cs : List Char) : readValue fuel (blanks ++ cs) = readValue fuel cs := by
  cases fuel with
  | zero => rw [readValue, readValue]
  | succ fuel => rw [readValue, readValue, skipBlanks_append h]

theorem endsNumber_cons {c : Char} (h : isBlank c = true ∨ c = ',' ∨ c = ']' ∨ c = '}')
    (cs : List Char) : EndsNumber (c :: cs) := by
  intro d hd
  cases hd
  rcases h with h | rfl | rfl | rfl
  · rw [isBlank, Bool.or_eq_true, Bool.or_eq_true, Bool.or_eq_true, beq_iff_eq, beq_iff_eq,
      beq_iff_eq, beq_iff_eq] at h
    rcases h with ((rfl | rfl) | rfl) | rfl <;> decide
  · decide
  · decide
  · decide

theorem endsNumber_append_cons {blanks : List Char} (h : AllBlank blanks) {c : Char}
    (hc : c = ']' ∨ c = '}') (cs : List Char) : EndsNumber (blanks ++ c :: cs) := by
  cases blanks with
  | nil => exact endsNumber_cons (.inr (.inr hc)) cs
  | cons b blanks => exact endsNumber_cons (.inl (h b List.mem_cons_self)) _

/-! ## One lemma for each kind of value -/

/-- The characters are read as the value, before whatever may follow. -/
def IsReadAs (cs : List Char) (v : JsonValue) : Prop :=
  ∀ fuel rest, cs.length ≤ fuel → EndsNumber rest → readValue fuel (cs ++ rest) = some (v, rest)

/-- The first character takes the unit of fuel that the value itself needs. -/
theorem isReadAs_cons {c : Char} {cs : List Char} {v : JsonValue}
    (h : ∀ fuel rest, cs.length ≤ fuel → EndsNumber rest →
      readValue (fuel + 1) (c :: (cs ++ rest)) = some (v, rest)) : IsReadAs (c :: cs) v := by
  intro fuel rest hfuel hrest
  cases fuel with
  | zero => exact absurd hfuel (Nat.not_succ_le_zero _)
  | succ fuel => exact h fuel rest (Nat.le_of_succ_le_succ hfuel) hrest

theorem readValue_number {c : Char} (hc : (c == '-' || isDigit c) = true) (fuel : Nat)
    (cs : List Char) : readValue (fuel + 1) (c :: cs) = readNumber (c :: cs) := by
  have hne : ∀ d, (d == '-' || isDigit d) = false → c ≠ d := by
    rintro d hd rfl
    exact absurd (hd.symm.trans hc) Bool.false_ne_true
  have hblank : isBlank c = false := by
    rw [isBlank, beq_eq_false_iff_ne.mpr (hne ' ' rfl), beq_eq_false_iff_ne.mpr (hne '\t' rfl),
      beq_eq_false_iff_ne.mpr (hne '\n' rfl), beq_eq_false_iff_ne.mpr (hne '\r' rfl)]
    rfl
  rw [readValue, skipBlanks_cons hblank]
  split
  · rename_i h
    exact absurd (List.cons.inj h).1 (hne '"' rfl)
  · rename_i h
    exact absurd (List.cons.inj h).1 (hne '[' rfl)
  · rename_i h
    exact absurd (List.cons.inj h).1 (hne '{' rfl)
  · rename_i h
    obtain ⟨rfl, rfl⟩ := List.cons.inj h
    rw [if_pos hc]
  · rename_i h
    cases h

namespace IsReadAs

theorem null : IsReadAs "null".toList null :=
  isReadAs_cons fun _ _ _ _ => rfl

theorem bool_false : IsReadAs "false".toList (.bool false) :=
  isReadAs_cons fun _ _ _ _ => rfl

theorem bool_true : IsReadAs "true".toList (.bool true) :=
  isReadAs_cons fun _ _ _ _ => rfl

theorem integer (n : Int) : IsReadAs (integerChars n) (.integer n) := by
  obtain ⟨c, cs, hcs, hc⟩ := exists_integerChars_eq_cons n
  rw [hcs]
  refine isReadAs_cons fun fuel rest _ hrest => ?_
  rw [readValue_number hc, ← List.cons_append, ← hcs]
  exact readNumber_integerChars n hrest

theorem string (s : String) : IsReadAs (quote s) (.string s) := by
  refine isReadAs_cons fun fuel rest _ _ => ?_
  rw [List.append_assoc, List.singleton_append, readValue, skipBlanks_cons rfl]
  simp only [readText_quote]

end IsReadAs

/-! ## Rows and records -/

section Steps

variable {fuel : Nat} {cs rest after : List Char}

/-- The last item of a row stands before the bracket. -/
theorem readItems_last {item : JsonValue} (hread : readValue fuel cs = some (item, rest))
    (hclose : skipBlanks rest = ']' :: after) :
    readItems (fuel + 1) cs = some ([item], after) := by
  rw [readItems, hread]
  simp only [hclose]

/-- Any other stands before a comma. -/
theorem readItems_more {item : JsonValue} {items : List JsonValue} {more : List Char}
    (hread : readValue fuel cs = some (item, rest)) (hcomma : skipBlanks rest = ',' :: more)
    (hmore : readItems fuel more = some (items, after)) :
    readItems (fuel + 1) cs = some (item :: items, after) := by
  rw [readItems, hread]
  simp only [hcomma, hmore, Option.map_some]

/-- Nothing is read where a row closes at once, so that a row that is read does not. -/
theorem readItems_close (h : skipBlanks cs = ']' :: after) : readItems fuel cs = none := by
  match fuel with
  | 0 => rw [readItems]
  | 1 => rw [readItems, readValue]
  | fuel + 2 =>
    have hvalue : readValue (fuel + 1) cs = none := by
      rw [readValue, h]
      rfl
    rw [readItems, hvalue]

theorem readValue_bracket {items : List JsonValue} (h : readItems fuel cs = some (items, rest)) :
    readValue (fuel + 1) ('[' :: cs) = some (array items, rest) := by
  rw [readValue, skipBlanks_cons rfl]
  simp only
  split
  · rename_i hclose
    rw [readItems_close hclose] at h
    cases h
  · rw [h]
    rfl

section

variable {front : List Char} (hfront : AllBlank front) {key : String} {value : JsonValue}
  (hread : readValue fuel cs = some (value, rest))

include hfront hread

theorem readMembers_last (hclose : skipBlanks rest = '}' :: after) :
    readMembers (fuel + 1) (front ++ (quote key ++ ':' :: cs)) =
      some ([(some key, value)], after) := by
  have hcolon : skipBlanks (':' :: cs) = ':' :: cs := skipBlanks_cons rfl cs
  rw [quote, List.cons_append, List.append_assoc, List.singleton_append, readMembers,
    skipBlanks_append_cons hfront rfl]
  simp only [readText_quote, hcolon, hread, hclose]

/-- A member is read in front of a comma like the last one in front of the brace. -/
theorem readMembers_more {members : List (Option String × JsonValue)} {more : List Char}
    (hcomma : skipBlanks rest = ',' :: more)
    (hmore : readMembers fuel more = some (members, after)) :
    readMembers (fuel + 1) (front ++ (quote key ++ ':' :: cs)) =
      some ((some key, value) :: members, after) := by
  have hcolon : skipBlanks (':' :: cs) = ':' :: cs := skipBlanks_cons rfl cs
  rw [quote, List.cons_append, List.append_assoc, List.singleton_append, readMembers,
    skipBlanks_append_cons hfront rfl]
  simp only [readText_quote, hcolon, hread, hcomma, hmore, Option.map_some]

end

theorem readMembers_close (h : skipBlanks cs = '}' :: after) : readMembers fuel cs = none := by
  cases fuel with
  | zero => rw [readMembers]
  | succ fuel =>
    rw [readMembers, h]
    rfl

theorem readValue_brace {members : List (Option String × JsonValue)}
    (h : readMembers fuel cs = some (members, rest)) :
    readValue (fuel + 1) ('{' :: cs) = some (ofMembers members, rest) := by
  rw [readValue, skipBlanks_cons rfl]
  simp only
  split
  · rename_i hclose
    rw [readMembers_close hclose] at h
    cases h
  · rw [h]
    rfl

end Steps

theorem mapM_map_eq_some {α β γ : Type} {write : α → β} {read : β → Option γ} {g : α → γ}
    {l : List α} (h : ∀ a ∈ l, read (write a) = some (g a)) :
    (l.map write).mapM read = some (l.map g) := by
  induction l with
  | nil => rfl
  | cons a l ih =>
    have hread := h a List.mem_cons_self
    have hrest := ih fun b hb => h b (List.mem_cons_of_mem a hb)
    rw [List.map_cons, List.mapM_cons, hread, hrest]
    rfl

theorem ofMembers_some (members : List (String × JsonValue)) :
    ofMembers (members.map fun m => (some m.1, m.2)) = object members := by
  rw [ofMembers, mapM_map_eq_some (g := id)]
  · rw [List.map_id]
  · exact fun _ _ => rfl

/-- The characters are those of a key, a colon and a value. -/
def IsMember (piece : List Char) (member : String × JsonValue) : Prop :=
  ∃ gap cs, AllBlank gap ∧ IsReadAs cs member.2 ∧ piece = quote member.1 ++ ':' :: (gap ++ cs)

theorem separated_cons_cons (separator piece next : List Char) (pieces : List (List Char)) :
    separated separator (piece :: next :: pieces) =
      piece ++ (separator ++ separated separator (next :: pieces)) := by
  rw [separated, List.append_assoc]
  exact List.cons_ne_nil _ _

variable {front back : List Char} {pieces : List (List Char)}

/-- A row of items, behind its opening bracket. The fuel left is more than what is left to read. -/
theorem readItems_separated (hfront : AllBlank front) (hback : AllBlank back)
    {items : List JsonValue} (h : List.Forall₂ IsReadAs pieces items) (hne : items ≠ [])
    {fuel : Nat} (hfuel : (separated (',' :: front) pieces).length < fuel) (rest : List Char) :
    readItems fuel (front ++ (separated (',' :: front) pieces ++ (back ++ ']' :: rest))) =
      some (items, rest) := by
  induction h generalizing fuel with
  | nil => exact absurd rfl hne
  | @cons piece item pieces items hitem hitems ih =>
    obtain ⟨fuel, rfl⟩ := Nat.exists_eq_succ_of_ne_zero (Nat.ne_zero_of_lt hfuel)
    cases hitems with
    | nil =>
      have hends := endsNumber_append_cons hback (.inl rfl) rest
      have hread := hitem fuel _ (Nat.le_of_lt_succ hfuel) hends
      rw [← readValue_append hfront] at hread
      exact readItems_last hread (skipBlanks_append_cons hback rfl rest)
    | @cons next nextItem pieces items hnext hmore =>
      rw [separated_cons_cons, List.length_append, List.length_append, List.length_cons] at hfuel
      -- A number as an item ends at the comma behind it.
      have hends := endsNumber_cons (.inr (.inl rfl))
        (front ++ (separated (',' :: front) (next :: pieces) ++ (back ++ ']' :: rest)))
      have hread := hitem fuel _ (by omega) hends
      have hless : (separated (',' :: front) (next :: pieces)).length < fuel := by omega
      have hmore := ih (List.cons_ne_nil _ _) hless
      rw [← readValue_append hfront] at hread
      simp only [separated_cons_cons, List.append_assoc, List.cons_append]
      exact readItems_more hread (skipBlanks_cons rfl _) hmore

/-- A row of members, behind its opening brace. -/
theorem readMembers_separated (hfront : AllBlank front) (hback : AllBlank back)
    {members : List (String × JsonValue)} (h : List.Forall₂ IsMember pieces members)
    (hne : members ≠ []) {fuel : Nat}
    (hfuel : (separated (',' :: front) pieces).length < fuel) (rest : List Char) :
    readMembers fuel (front ++ (separated (',' :: front) pieces ++ (back ++ '}' :: rest))) =
      some (members.map fun m => (some m.1, m.2), rest) := by
  induction h generalizing fuel with
  | nil => exact absurd rfl hne
  | @cons piece member pieces members hmember hmembers ih =>
    obtain ⟨fuel, rfl⟩ := Nat.exists_eq_succ_of_ne_zero (Nat.ne_zero_of_lt hfuel)
    obtain ⟨gap, cs, hgap, hvalue, rfl⟩ := hmember
    cases hmembers with
    | nil =>
      rw [separated, List.length_append, List.length_cons, List.length_append] at hfuel
      have hends := endsNumber_append_cons hback (.inr rfl) rest
      have hread := hvalue fuel _ (by omega) hends
      rw [← readValue_append hgap] at hread
      rw [separated, List.append_assoc, List.cons_append, List.append_assoc]
      exact readMembers_last hfront hread (skipBlanks_append_cons hback rfl rest)
    | @cons next nextMember pieces members hnext hmore =>
      rw [separated_cons_cons, List.length_append, List.length_append, List.length_append,
        List.length_cons, List.length_append, List.length_cons] at hfuel
      have hends := endsNumber_cons (.inr (.inl rfl))
        (front ++ (separated (',' :: front) (next :: pieces) ++ (back ++ '}' :: rest)))
      have hread := hvalue fuel _ (by omega) hends
      -- The fuel that is left is more than the characters of the other pieces, as the induction
      -- asks.
      have hless : (separated (',' :: front) (next :: pieces)).length < fuel := by omega
      have hmore := ih (List.cons_ne_nil _ _) hless
      rw [← readValue_append hgap] at hread
      simp only [separated_cons_cons, List.append_assoc, List.cons_append]
      exact readMembers_more hfront hread (skipBlanks_cons rfl _) hmore

namespace IsReadAs

theorem array (hfront : AllBlank front) (hback : AllBlank back) {items : List JsonValue}
    (h : List.Forall₂ IsReadAs pieces items) :
    IsReadAs ('[' :: (front ++ (separated (',' :: front) pieces ++ (back ++ [']']))))
      (.array items) := by
  refine isReadAs_cons fun fuel rest hfuel _ => ?_
  rw [List.append_assoc, List.append_assoc, List.append_assoc, List.singleton_append]
  cases h with
  | nil =>
    have hclose : skipBlanks (front ++ (back ++ ']' :: rest)) = ']' :: rest := by
      rw [skipBlanks_append hfront, skipBlanks_append_cons hback rfl]
    rw [readValue, skipBlanks_cons rfl, separated, List.nil_append]
    simp only [hclose]
  | cons hitem hitems =>
    rw [List.length_append, List.length_append, List.length_append, List.length_singleton]
      at hfuel
    exact readValue_bracket
      (readItems_separated hfront hback (.cons hitem hitems) (List.cons_ne_nil _ _) (by omega) rest)

theorem object (hfront : AllBlank front) (hback : AllBlank back)
    {members : List (String × JsonValue)} (h : List.Forall₂ IsMember pieces members) :
    IsReadAs ('{' :: (front ++ (separated (',' :: front) pieces ++ (back ++ ['}']))))
      (.object members) := by
  refine isReadAs_cons fun fuel rest hfuel _ => ?_
  rw [List.append_assoc, List.append_assoc, List.append_assoc, List.singleton_append]
  cases h with
  | nil =>
    have hclose : skipBlanks (front ++ (back ++ '}' :: rest)) = '}' :: rest := by
      rw [skipBlanks_append hfront, skipBlanks_append_cons hback rfl]
    rw [readValue, skipBlanks_cons rfl, separated, List.nil_append]
    simp only [hclose]
  | @cons piece member pieces members hmember hmembers =>
    rw [List.length_append, List.length_append, List.length_append, List.length_singleton]
      at hfuel
    rw [← ofMembers_some (member :: members)]
    exact readValue_brace (readMembers_separated hfront hback (.cons hmember hmembers)
      (List.cons_ne_nil _ _) (by omega) rest)

end IsReadAs

/-! ## Both layouts -/

/-- The value is made of what the wallet can make sense of. -/
inductive IsMeaningful : JsonValue → Prop
  | null : IsMeaningful .null
  | bool (b : Bool) : IsMeaningful (.bool b)
  | integer (n : Int) : IsMeaningful (.integer n)
  | string (s : String) : IsMeaningful (.string s)
  | array {items : List JsonValue} (h : ∀ v ∈ items, IsMeaningful v) : IsMeaningful (.array items)
  | object {members : List (String × JsonValue)} (h : ∀ m ∈ members, IsMeaningful m.2) :
    IsMeaningful (.object members)

theorem compactItems_eq_map (items : List JsonValue) :
    compactItems items = items.map compactChars := by
  induction items with
  | nil => rw [compactItems, List.map_nil]
  | cons item items ih => rw [compactItems, ih, List.map_cons]

theorem compactMembers_eq_map (members : List (String × JsonValue)) :
    compactMembers members = members.map fun m => quote m.1 ++ ':' :: compactChars m.2 := by
  induction members with
  | nil => rw [compactMembers, List.map_nil]
  | cons m members ih => rw [compactMembers, ih, List.map_cons]

theorem prettyItems_eq_map (level : Nat) (items : List JsonValue) :
    prettyItems level items = items.map (prettyChars level) := by
  induction items with
  | nil => rw [prettyItems, List.map_nil]
  | cons item items ih => rw [prettyItems, ih, List.map_cons]

theorem prettyMembers_eq_map (level : Nat) (members : List (String × JsonValue)) :
    prettyMembers level members =
      members.map fun m => quote m.1 ++ [':', ' '] ++ prettyChars level m.2 := by
  induction members with
  | nil => rw [prettyMembers, List.map_nil]
  | cons m members ih => rw [prettyMembers, ih, List.map_cons]

theorem forall₂_map_left {α β : Type} {R : α → β → Prop} {f : β → α} {l : List β}
    (h : ∀ b ∈ l, R (f b) b) : List.Forall₂ R (l.map f) l :=
  List.forall₂_map_left_iff.mpr (List.forall₂_same.mpr h)

/-- The walk down a value for the layout in one line. -/
theorem isReadAs_compactChars {v : JsonValue} (h : v.IsMeaningful) :
    IsReadAs (compactChars v) v := by
  induction h with
  | null => rw [compactChars]; exact .null
  | bool b =>
    cases b with
    | false => rw [compactChars]; exact .bool_false
    | true => rw [compactChars]; exact .bool_true
  | integer n => rw [compactChars]; exact .integer n
  | string s => rw [compactChars]; exact .string s
  | array _ ih =>
    rw [compactChars, compactItems_eq_map]
    exact .array allBlank_nil allBlank_nil (forall₂_map_left ih)
  | object _ ih =>
    rw [compactChars, compactMembers_eq_map]
    exact .object allBlank_nil allBlank_nil
      (forall₂_map_left fun m hm => ⟨[], _, allBlank_nil, ih m hm, rfl⟩)

/-- An empty row has nothing to spread, not even blanks. -/
theorem exists_spread (opening closing : Char) (level : Nat) (pieces : List (List Char)) :
    ∃ front back, AllBlank front ∧ AllBlank back ∧ spread opening closing level pieces =
      opening :: (front ++ (separated (',' :: front) pieces ++ (back ++ [closing]))) := by
  cases pieces with
  | nil => exact ⟨[], [], allBlank_nil, allBlank_nil, rfl⟩
  | cons piece pieces =>
    refine ⟨_, _, allBlank_lineBreak (level + 1), allBlank_lineBreak level, ?_⟩
    rw [spread, List.append_assoc, List.append_assoc]
    exact List.cons_ne_nil _ _

/-- The walk down a value for the layout of one member a line. -/
theorem isReadAs_prettyChars {v : JsonValue} (h : v.IsMeaningful) (level : Nat) :
    IsReadAs (prettyChars level v) v := by
  induction h generalizing level with
  | null => rw [prettyChars]; exact .null
  | bool b =>
    cases b with
    | false => rw [prettyChars]; exact .bool_false
    | true => rw [prettyChars]; exact .bool_true
  | integer n => rw [prettyChars]; exact .integer n
  | string s => rw [prettyChars]; exact .string s
  | array _ ih =>
    rw [prettyChars, prettyItems_eq_map]
    obtain ⟨front, back, hfront, hback, hspread⟩ := exists_spread '[' ']' level _
    rw [hspread]
    exact .array hfront hback (forall₂_map_left fun v hv => ih v hv (level + 1))
  | object _ ih =>
    rw [prettyChars, prettyMembers_eq_map]
    obtain ⟨front, back, hfront, hback, hspread⟩ := exists_spread '{' '}' level _
    rw [hspread]
    refine .object hfront hback (forall₂_map_left fun m hm => ?_)
    refine ⟨[' '], _, fun c hc => ?_, ih m hm (level + 1), List.append_assoc ..⟩
    rw [List.mem_singleton.mp hc]
    rfl

theorem parse_of_isReadAs {cs : List Char} {v : JsonValue} (h : IsReadAs cs v) :
    parse (String.ofList cs) = some v := by
  have hread := h (cs.length + 1) [] (Nat.le_succ _) (fun c hc => absurd hc (Option.not_mem_none c))
  rw [List.append_nil] at hread
  rw [parse, String.toList_ofList, parseChars, hread]
  rfl

/-- **A value is read back from its text in one line.** -/
theorem parse_compact {v : JsonValue} (h : v.IsMeaningful) : parse v.compact = some v :=
  parse_of_isReadAs (isReadAs_compactChars h)

/-- **A value is read back from its text over several lines.** -/
theorem parse_pretty {v : JsonValue} (h : v.IsMeaningful) : parse v.pretty = some v :=
  parse_of_isReadAs (isReadAs_prettyChars h 0)

end CashWallet.JsonValue
