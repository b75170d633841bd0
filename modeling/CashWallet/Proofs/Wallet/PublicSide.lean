import CashWallet.Curve.Secp256k1
import CashWallet.Proofs.Wallet.Derivation

/-!
# `CashWallet/Proofs/Wallet/PublicSide.lean` — the tree of public keys is the public side of the tree

Whoever holds a node without its private key can walk on from it, and **finds the public sides of
the nodes that the private key leads to**, as long as no hardened child is asked for. The two walks
move different things on, one a number and the other a point; what makes them meet is one law of the
curve (`KeySuite.IsAdditive`), and that the amount of a child depends on public data only.

The law also says when moving on fails, so the walks fail together: `child_neuter` is an equation
between outcomes, with the error in it, and a path is the induction along its steps.

A hardened child is made from the private key and is not to be had from the public side. That a walk
without a private key never arrives behind a hardened step is no consequence of the law, and holds
on any curve (`ExtendedKey.descend_of_hardened`).

The law is a fact of the curve that is not proved here. To see that it can hold, and to follow a
walk with it, the curve is replaced by a table of the few points that the walk comes past.
-/

set_option autoImplicit false

namespace CashWallet

/-- What is taken on trust of the curve: the public key of the sum of two numbers is the public key
of the first moved on by the second, and moving on ends at infinity exactly where the sum is
zero. -/
structure KeySuite.IsAdditive [KeySuite] : Prop where
  shift_publicKey : ∀ (k moved : PrivateKey) (t : Nat), t < curveOrder →
    moved.scalar = (k.scalar + t) % curveOrder → KeySuite.shift k.publicKey t = some moved.publicKey
  shift_infinity : ∀ (k : PrivateKey) (t : Nat), t < curveOrder →
    (k.scalar + t) % curveOrder = 0 → KeySuite.shift k.publicKey t = none

section

variable [KeySuite]

/-! ## One amount -/

/-- A private key and its public key are moved on together, or neither is. -/
theorem PublicKey.tweak_publicKey (hcurve : KeySuite.IsAdditive) (k : PrivateKey) (t : Bytes) :
    (k.publicKey.tweak t).toOption = (k.tweak t).toOption.map PrivateKey.publicKey := by
  unfold PublicKey.tweak PrivateKey.tweak
  by_cases hrange : curveOrder ≤ Bytes.toNatBE t
  · simp only [if_pos hrange]
    rfl
  simp only [if_neg hrange]
  have hlt : Bytes.toNatBE t < curveOrder := Nat.lt_of_not_le hrange
  have hcomm : Bytes.toNatBE t + k.scalar = k.scalar + Bytes.toNatBE t := Nat.add_comm _ _
  have hsum : (k.scalar + Bytes.toNatBE t) % curveOrder < curveOrder := Nat.mod_lt _ (by decide)
  rw [hcomm, PrivateKey.ofNat?]
  by_cases hzero : (k.scalar + Bytes.toNatBE t) % curveOrder = 0
  · rw [hcurve.shift_infinity k _ hlt hzero, dif_neg (by omega)]
    rfl
  · rw [dif_pos ⟨Nat.pos_of_ne_zero hzero, hsum⟩, hcurve.shift_publicKey k ⟨_, _, hsum⟩ _ hlt rfl]
    rfl

namespace ExtendedKey

/-- The key of a node and that of its public side are moved on together. -/
theorem tweak?_neuter (hcurve : KeySuite.IsAdditive) (n : ExtendedKey) (t : Bytes) :
    NodeKey.tweak? n.neuter.key t =
      (NodeKey.tweak? n.key t).map fun key => { n with key := key }.neuter.key := by
  unfold neuter publicKey
  cases n.key with
  | secret k =>
    simp only [NodeKey.tweak?, PublicKey.tweak_publicKey hcurve, Option.map_map]
    rfl
  | shown k =>
    simp only [NodeKey.tweak?, Option.map_map]
    rfl

/-! ## One child -/

/-- Below 2³¹ the amount of a child depends on public data only. -/
theorem childData_of_normal {n : ExtendedKey} {index : UInt32} (h : isHardened index = false) :
    n.childData index = n.publicKey.compressed ++ Bytes.ofNatBE 4 index.toNat := by
  unfold childData
  cases n.key with
  | secret k => simp only [h, Bool.false_eq_true, if_false]
  | shown k => rfl

/-- **The child of the public side is the public side of the child**, and one fails as the other. -/
theorem child_neuter (hcurve : KeySuite.IsAdditive) (n : ExtendedKey) {index : UInt32}
    (h : isHardened index = false) : n.neuter.child index = (n.child index).map neuter := by
  have hdata : n.neuter.childData index = n.childData index := by
    rw [childData_of_normal h, childData_of_normal h]
    rfl
  unfold child
  rw [hdata]
  simp only [h, Bool.and_false, Bool.false_eq_true, if_false]
  by_cases hdepth : n.depth = 255
  · have hdepth' : n.neuter.depth = 255 := hdepth
    rw [if_pos hdepth, if_pos hdepth']
    rfl
  have hdepth' : n.neuter.depth ≠ 255 := hdepth
  rw [if_neg hdepth, if_neg hdepth']
  -- The keyed hash is any pair of halves from here on, and the same one on both sides.
  generalize hhalves : halves n.chainCode.bytes (n.childData index) = pair
  have hhalves' : halves n.neuter.chainCode.bytes (n.childData index) = pair := hhalves
  obtain ⟨amount, chainCode⟩ := pair
  simp only [hhalves', tweak?_neuter hcurve]
  cases NodeKey.tweak? n.key amount with
  | none => rfl
  | some key => rfl

/-! ## Nodes without a private key -/

theorem child_of_hardened {n : ExtendedKey} {index : UInt32} (hn : n.isPrivate = false)
    (h : isHardened index = true) : ∃ e, n.child index = .error e := by
  unfold child
  by_cases hdepth : n.depth = 255
  · exact ⟨_, if_pos hdepth⟩
  · rw [if_neg hdepth, hn, h]
    exact ⟨_, rfl⟩

/-! ## Paths -/

/-- The walk from the public side goes along the walk from the node. -/
theorem descend_neuter (hcurve : KeySuite.IsAdditive) {path : List UInt32} :
    ∀ (n : ExtendedKey), (∀ index ∈ path, isHardened index = false) →
      n.neuter.descend path = (n.descend path).map neuter := by
  induction path with
  | nil => exact fun _ _ => rfl
  | cons index path ih =>
    intro n h
    rw [descend, descend, child_neuter hcurve n (h index List.mem_cons_self)]
    cases n.child index with
    | error e => rfl
    | ok c => exact ih c fun i hi => h i (List.mem_cons_of_mem index hi)

/-- A walk without a private key fails at a hardened step, if not before. -/
theorem descend_of_hardened {n : ExtendedKey} {path : List UInt32} (hn : n.isPrivate = false)
    (h : ∃ index ∈ path, isHardened index = true) : ∃ e, n.descend path = .error e := by
  induction path generalizing n with
  | nil =>
    obtain ⟨index, hindex, -⟩ := h
    cases hindex
  | cons first path ih =>
    obtain ⟨index, hindex, hhard⟩ := h
    rw [descend]
    cases hchild : n.child first with
    | error e => exact ⟨e, rfl⟩
    | ok next =>
      obtain rfl | hindex := List.mem_cons.mp hindex
      · obtain ⟨e, he⟩ := child_of_hardened hn hhard
        rw [he] at hchild
        cases hchild
      · exact ih ((isPrivate_of_child hchild).trans hn) ⟨index, hindex, hhard⟩

/-- **Public derivation follows private derivation.** Along a path without hardened steps the walk
from the public side of a node has the outcome of the walk from the node: its public side when it
arrives, and the same error when it does not. And a walk from a node without a private key arrives
at nodes without one only, and nowhere when one of its steps is hardened. -/
theorem descend_publicSide (hcurve : KeySuite.IsAdditive) :
    (∀ (n : ExtendedKey) (path : List UInt32), (∀ index ∈ path, index < hardenedStart) →
        n.neuter.descend path = (n.descend path).map neuter) ∧
      ∀ (n : ExtendedKey) (path : List UInt32), n.isPrivate = false →
        (∀ c, n.descend path = .ok c → c.isPrivate = false) ∧
          ((∃ index ∈ path, hardenedStart ≤ index) → ∃ e, n.descend path = .error e) := by
  refine ⟨fun n path h => ?_, fun n path hn => ⟨fun c hc => ?_, fun ⟨index, hindex, hhard⟩ => ?_⟩⟩
  · refine descend_neuter hcurve n fun index hindex => ?_
    exact decide_eq_false (UInt32.not_le.mpr (h index hindex))
  · exact (isPrivate_descend hc).trans hn
  · exact descend_of_hardened hn ⟨index, hindex, decide_eq_true hhard⟩

end ExtendedKey

end

/-! ## Keys and points in a table

The law speaks of all keys, and no evaluation goes through all of them. What a walk of a few steps
needs is a few points; with these in a table, and a point apart for every other key, the law can be
looked up instead of computed, and it holds whatever the table (`isAdditive_tableSuite`). That the
table has the points of the curve is decided entry by entry. -/

/-- The point that a key has in a table; of any other key, a point that no key in the table has. -/
def pointIn (table : List (PrivateKey × PublicKey)) (k : PrivateKey) : PublicKey :=
  ((table.find? (·.1 = k)).map Prod.snd).getD ⟨k.scalar, 0⟩

/-- The number of the key that has a point; of any other point the first coordinate, where `pointIn`
puts it. -/
def scalarIn (table : List (PrivateKey × PublicKey)) (p : PublicKey) : Nat :=
  ((table.find? (·.2 = p)).map (·.1.scalar)).getD p.x

theorem scalarIn_pointIn {table : List (PrivateKey × PublicKey)}
    (htable : ∀ e ∈ table, table.find? (·.2 = e.2) = some e ∧ e.2.y ≠ 0) (k : PrivateKey) :
    scalarIn table (pointIn table k) = k.scalar := by
  unfold pointIn
  cases hfind : table.find? (·.1 = k) with
  | some e =>
    have hkey := List.find?_some hfind
    rw [decide_eq_true_eq] at hkey
    have hpoint : (table.find? (·.2 = e.2)) = some e := (htable e (List.mem_of_find?_eq_some hfind)).1
    simp only [scalarIn, Option.map_some, Option.getD_some, hpoint, hkey]
  | none =>
    have hpoint : table.find? (·.2 = (⟨k.scalar, 0⟩ : PublicKey)) = none := by
      refine List.find?_eq_none.mpr fun e he heq => (htable e he).2 ?_
      rw [of_decide_eq_true heq]
    simp only [scalarIn, Option.map_none, Option.getD_none, hpoint]

/-- The operations of the curve, with the points of all keys as a table has them. -/
@[reducible] def tableSuite (table : List (PrivateKey × PublicKey)) : KeySuite where
  publicKey := pointIn table
  shift p t := (PrivateKey.ofNat? ((scalarIn table p + t) % curveOrder)).map (pointIn table)
  readPoint := Curve.secp256k1.readPoint
  sign := Curve.secp256k1.sign
  verify := Curve.secp256k1.verify
  stretch := Curve.secp256k1.stretch

theorem isAdditive_tableSuite {table : List (PrivateKey × PublicKey)}
    (htable : ∀ e ∈ table, table.find? (·.2 = e.2) = some e ∧ e.2.y ≠ 0) :
    @KeySuite.IsAdditive (tableSuite table) := by
  refine @KeySuite.IsAdditive.mk (tableSuite table) (fun k moved t _ hmoved => ?_)
    (fun k t _ hzero => ?_)
  · show (PrivateKey.ofNat? ((scalarIn table (pointIn table k) + t) % curveOrder)).map _ = _
    rw [scalarIn_pointIn htable, ← hmoved, PrivateKey.ofNat?, dif_pos ⟨moved.pos, moved.lt⟩]
    rfl
  · show (PrivateKey.ofNat? ((scalarIn table (pointIn table k) + t) % curveOrder)).map _ = _
    rw [scalarIn_pointIn htable, hzero]
    rfl

/-! ## A walk of two steps -/

namespace ExtendedKey

/-- The keys on the way from the number one along `0`, `2³¹ - 1`, below a chain code of zeros, and
the points that belong to them. -/
def sampleStart : PrivateKey × PublicKey :=
  (⟨1, by decide, by decide⟩,
    ⟨0x79be667ef9dcbbac55a06295ce870b07029bfcdb2dce28d959f2815b16f81798,
      0x483ada7726a3c4655da4fbfc0e1108a8fd17b448a68554199c47d08ffb10d4b8⟩)

def sampleMiddle : PrivateKey × PublicKey :=
  (⟨16259327687906811537579289900863763406429385948497097106067241359945865714484, by decide,
      by decide⟩,
    ⟨48850277790182133671332990676084779612057195249163654710239894651651831203753,
      29676770342374287817695842016368835475678922080448974174846642099735831676329⟩)

def sampleEnd : PrivateKey × PublicKey :=
  (⟨52029677015024609066343417660202540781627347826995184092740899036739569524536, by decide,
      by decide⟩,
    ⟨96393610246890033437723224149899459885979909034779809081121221938748712506922,
      43429279601244309703451081744737632235284916538734184441760901502709849572043⟩)

/-- On the way of the sample the points of the table are those of the curve
(`descend_sampleSuite`). -/
@[reducible] def sampleSuite : KeySuite :=
  tableSuite [sampleStart, sampleMiddle, sampleEnd]

theorem isAdditive_sampleSuite : @KeySuite.IsAdditive sampleSuite :=
  isAdditive_tableSuite (by decide +kernel)

def sampleRoot : ExtendedKey :=
  ⟨.secret sampleStart.1, .zeros 32, 0, .zeros 4, 0, .mainnet⟩

def sampleArrival : ExtendedKey :=
  ⟨.secret sampleEnd.1,
    ⟨[237, 41, 170, 81, 28, 143, 211, 19, 244, 73, 246, 101, 77, 173, 104, 120, 171, 80, 7, 96, 175,
      203, 218, 12, 225, 214, 208, 10, 36, 40, 70, 169], rfl⟩, 2, ⟨[34, 21, 157, 73], rfl⟩,
    0x7fffffff, .mainnet⟩

theorem descend_sampleSuite :
    (@descend Curve.secp256k1 sampleRoot [0, 0x7fffffff]).toOption = some sampleArrival ∧
      (@descend Curve.secp256k1 (@neuter Curve.secp256k1 sampleRoot) [0, 0x7fffffff]).toOption =
        some (@neuter sampleSuite sampleArrival) ∧
      (@descend sampleSuite sampleRoot [0, 0x7fffffff]).toOption = some sampleArrival := by
  decide +kernel

/-- From the public side of the sample the walk finds the public side of where the private key
leads; both walks go the same way on the curve itself, and a hardened step fails. -/
theorem descend_publicSide_sample :
    @KeySuite.IsAdditive sampleSuite ∧
      @descend sampleSuite (@neuter sampleSuite sampleRoot) [0, 0x7fffffff] =
        .ok (@neuter sampleSuite sampleArrival) ∧
      (@descend Curve.secp256k1 sampleRoot [0, 0x7fffffff]).toOption = some sampleArrival ∧
      (@descend Curve.secp256k1 (@neuter Curve.secp256k1 sampleRoot) [0, 0x7fffffff]).toOption =
        some (@neuter sampleSuite sampleArrival) ∧
      ∃ e, @descend sampleSuite (@neuter sampleSuite sampleRoot) [0, 0x80000000] = .error e := by
  obtain ⟨hwalk, hpublic⟩ := @descend_publicSide sampleSuite isAdditive_sampleSuite
  obtain ⟨hcurve, hcurve', hsample⟩ := descend_sampleSuite
  obtain ⟨-, hhard⟩ := hpublic (@neuter sampleSuite sampleRoot) [0, 0x80000000] rfl
  have hstep : hardenedStart ≤ (0x80000000 : UInt32) := by decide
  refine ⟨isAdditive_sampleSuite, ?_, hcurve, hcurve', hhard ⟨0x80000000, ?_, hstep⟩⟩
  · have hnormal : ∀ index ∈ [0, 0x7fffffff], index < hardenedStart := by
      simp only [List.forall_mem_cons]
      exact ⟨by decide, by decide, fun _ h => absurd h List.not_mem_nil⟩
    rw [hwalk sampleRoot [0, 0x7fffffff] hnormal]
    cases harrive : @descend sampleSuite sampleRoot [0, 0x7fffffff] with
    | error e =>
      rw [harrive] at hsample
      cases hsample
    | ok c =>
      rw [harrive] at hsample
      rw [← Option.some.inj hsample]
      rfl
  · exact List.mem_cons_of_mem 0 List.mem_cons_self

end ExtendedKey

end CashWallet
