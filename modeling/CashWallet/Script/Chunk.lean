import CashWallet.Script.Basic

/-!
# `CashWallet/Script/Chunk.lean` — a script cut into opcodes and pushes

Reading a script means cutting it where an opcode begins: a push takes the bytes it counts, any
other opcode stands alone. One opcode breaks the rule: **outside of every conditional `OP_RETURN`
takes all that follows it**, itself included, so that what stands behind it need not be a script at
all. The only thing that can go wrong is a push that counts more bytes than there are.

`Chunk.toBytes` writes a chunk back, which makes the cut a partition of the script.

## The depth of conditionals

Openings and closings are counted up and down from zero, and "outside" means that the count stands
at zero. A closing with nothing open takes the count below zero, where the next opening only brings
it back.

## Writing

Data is pushed with the shortest of the four forms that can count it (`pushHeader`), so a script
made here holds no push that could have been shorter. Opcodes can be appended too, but not the
opcodes of pushes: a push without its data would swallow what follows.
-/

set_option autoImplicit false

namespace CashWallet

/-- A piece of a script: a push with its data, an opcode that stands alone, or an `OP_RETURN`
together with all that follows it. -/
inductive Chunk
  | push (op : UInt8) (data : Bytes)
  | code (op : UInt8)
  | tail (bytes : Bytes)
  deriving Repr, DecidableEq

namespace Chunk

def op : Chunk → UInt8
  | push op _ => op
  | code op => op
  | tail _ => Opcode.opReturn

/-- What a piece pushes. An `OP_RETURN` with all that follows counts as data, from the opcode on. -/
def data? : Chunk → Option Bytes
  | push _ data => some data
  | code _ => none
  | tail bytes => some bytes

/-- Whether a piece begins with a push, be it of nothing. -/
def isPush (c : Chunk) : Bool :=
  Opcode.isPush c.op

/-- A script as words. One that cannot be cut has no words. -/
def asm : Chunk → String
  | push _ data => Hex.encode data
  | code op => Opcode.name op
  | tail _ => Opcode.name Opcode.opReturn

end Chunk

/-- How a push says how much it pushes: by its own number, or in a field behind it. -/
inductive PushForm
  | direct (count : Nat)
  | counted (width : Nat)
  deriving Repr, DecidableEq

/-- The form of a push; nothing for other opcodes and for `OP_0`, which pushes no data. -/
def PushForm.ofOpcode? (op : UInt8) : Option PushForm :=
  let n := op.toNat
  if 1 ≤ n ∧ n ≤ 75 then some (.direct n)
  else if op = Opcode.pushData1 then some (.counted 1)
  else if op = Opcode.pushData2 then some (.counted 2)
  else if op = Opcode.pushData4 then some (.counted 4)
  else none

/-- The data of a push and what follows it, if there are as many bytes as it counts. -/
def PushForm.cut? : PushForm → Bytes → Option (Bytes × Bytes)
  | direct count, b =>
    let data := b.take count
    if data.length < count then none else some (data, b.drop count)
  | counted width, b =>
    let field := b.take width
    if field.length < width then none
    else
      let count := Bytes.toNatLE field
      let data := (b.drop width).take count
      if data.length < count then none else some (data, (b.drop width).drop count)

/-- A push takes bytes and gives none, which is why cutting a script ends. -/
theorem PushForm.length_of_cut? {form : PushForm} {b data rest : Bytes}
    (h : form.cut? b = some (data, rest)) : rest.length ≤ b.length := by
  cases form with
  | direct count =>
    simp only [cut?] at h
    split at h
    · simp at h
    · simp only [Option.some.injEq, Prod.mk.injEq] at h
      simp [← h.2]
  | counted width =>
    simp only [cut?] at h
    split at h
    · simp at h
    · split at h
      · simp at h
      · simp only [Option.some.injEq, Prod.mk.injEq] at h
        simp [← h.2, List.drop_drop]

/-- How an opcode changes the depth of conditionals. -/
def depthChange (op : UInt8) : Int :=
  if op = Opcode.opIf ∨ op = Opcode.opNotIf ∨ op = Opcode.opVerIf ∨ op = Opcode.opVerNotIf then 1
  else if op = Opcode.opEndIf then -1
  else 0

namespace Chunk

/-- The pieces of a script that is entered at the given depth of conditionals. -/
def parseAt (depth : Int) (b : Bytes) : Except ScriptError (List Chunk) :=
  match b with
  | [] => .ok []
  | op :: rest =>
    match PushForm.ofOpcode? op with
    | some form =>
      match _cut : form.cut? rest with
      | none => .error .dataTooSmall
      | some (data, after) =>
        match parseAt depth after with
        | .ok chunks => .ok (push op data :: chunks)
        | .error e => .error e
    | none =>
      -- Outside of conditionals nothing behind `OP_RETURN` is looked at as code.
      if op = Opcode.opReturn ∧ depth = 0 then .ok [tail (op :: rest)]
      else
        match parseAt (depth + depthChange op) rest with
        | .ok chunks => .ok (code op :: chunks)
        | .error e => .error e
termination_by b.length
decreasing_by
  · have := PushForm.length_of_cut? _cut
    simp; omega
  · simp

def parse (b : Bytes) : Except ScriptError (List Chunk) :=
  parseAt 0 b

/-- The field that a push of an opcode has between itself and its data. -/
def lengthField (op : UInt8) (count : Nat) : Bytes :=
  match PushForm.ofOpcode? op with
  | some (.counted width) => Bytes.ofNatLE width count
  | _ => []

def toBytes : Chunk → Bytes
  | push op data => op :: (lengthField op data.length ++ data)
  | code op => [op]
  | tail bytes => bytes

end Chunk

namespace Script

def chunks (s : Script) : Except ScriptError (List Chunk) :=
  Chunk.parse s.bytes

/-- A script as words. One that cannot be cut has no words. -/
def asm (s : Script) : String :=
  match s.chunks with
  | .ok chunks => " ".intercalate (chunks.map Chunk.asm)
  | .error _ => ""

end Script

end CashWallet

/-! ## Writing pushes -/

namespace CashWallet

/-- The bytes before pushed data of the given length. -/
def pushHeader (length : Nat) : Except ScriptError Bytes :=
  if length ≤ 75 then .ok (Bytes.ofNatLE 1 length)
  else if length ≤ 0xff then .ok (Opcode.pushData1 :: Bytes.ofNatLE 1 length)
  else if length ≤ 0xffff then .ok (Opcode.pushData2 :: Bytes.ofNatLE 2 length)
  else if length ≤ 0xffffffff then .ok (Opcode.pushData4 :: Bytes.ofNatLE 4 length)
  else .error .dataTooBig

/-- The pushes of several parts, the first of which has the given index. -/
def encodePushesFrom : Nat → List Bytes → Except ScriptError Bytes
  | _, [] => .ok []
  | i, part :: parts =>
    match pushHeader part.length with
    | .error _ => .error (.partTooBig i)
    | .ok header =>
      match encodePushesFrom (i + 1) parts with
      | .ok rest => .ok (header ++ part ++ rest)
      | .error e => .error e

/-- The pushes of several parts, each in its shortest form. -/
def encodePushes (parts : List Bytes) : Except ScriptError Bytes :=
  encodePushesFrom 0 parts

namespace Script

def appendPush (s : Script) (data : Bytes) : Except ScriptError Script :=
  match pushHeader data.length with
  | .ok header => .ok ⟨s.bytes ++ header ++ data⟩
  | .error e => .error e

/-- The script with opcodes behind it, none of which may be a push with data to follow. -/
def appendOpcodes (s : Script) (ops : Bytes) : Except ScriptError Script :=
  match ops.find? fun op => op ≠ Opcode.op0 && Opcode.isPush op with
  | some op => .error (.pushAsOpcode op)
  | none => .ok ⟨s.bytes ++ ops⟩

end Script

end CashWallet
