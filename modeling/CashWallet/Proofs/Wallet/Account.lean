import CashWallet.Proofs.Wallet.PublicSide

/-!
# `CashWallet/Proofs/Wallet/Account.lean` — the steps to an address

An address is found in two walks, from the root to the account and from there to the address, with a
choice between them: the account may be left without its private key. The steps that were walked are
kept with the address, and **walking all of them in one go from the root ends at the node of the
address**, or at the one whose public side it is (`AccountKey.exists_node_of_deriveAddress`).

That the choice does not matter is the law of the public side, used once: behind an account the walk
has the same outcome with the private key and without it, but for the private key of where it ends
(`ExtendedKey.descend_side`). So what is found below an account, the steps and the text of the
address and the failure if there is one, can be said without the choice (`AccountKey.outcome_eq`).

The law of the public side asks that no step is hardened, and the steps behind an account never are:
one is the choice between receiving and change, and an index that is hardened is refused. In front
of the account it is the other way round. Below a root with its private key all three steps are
hardened, and below one without it none can be, since no hardened child is found there.

Walks are taken apart by their steps, so that two walks are one with the steps behind each other
(`ExtendedKey.descend_append`), and a walk arrives as many levels down as it has steps.
-/

set_option autoImplicit false

namespace CashWallet

/-! ## Steps that are hardened -/

namespace AccountKey

theorem isHardened_of_harden {index hardened : UInt32} (h : harden index = .ok hardened) :
    ExtendedKey.isHardened hardened = true := by
  rw [harden] at h
  by_cases hhard : ExtendedKey.isHardened index = true
  · rw [if_pos hhard] at h
    cases h
  rw [if_neg hhard] at h
  obtain rfl := Except.ok.inj h
  have hlt : index.toNat < hardenedStart.toNat :=
    UInt32.lt_iff_toNat_lt.mp (UInt32.not_le.mp fun hle => hhard (decide_eq_true hle))
  have hstart : hardenedStart.toNat = 2 ^ 31 := rfl
  refine decide_eq_true (UInt32.le_iff_toNat_le.mpr ?_)
  rw [UInt32.toNat_add]
  omega

/-- Below a root with its private key all steps to an account are hardened. -/
theorem isHardened_startBelow {root : ExtendedKey} {purpose coinType account : UInt32}
    {start : StartPath} (h : startBelow root purpose coinType account = .ok start) :
    root.isPrivate = true → ∀ index ∈ [start.purpose, start.coinType, start.account],
      ExtendedKey.isHardened index = true := by
  intro hroot
  rw [startBelow, if_pos hroot] at h
  cases hp : harden purpose with
  | error e =>
    rw [hp] at h
    cases h
  | ok p =>
  cases hc : harden coinType with
  | error e =>
    simp only [hp, hc] at h
    cases h
  | ok c =>
  cases ha : harden account with
  | error e =>
    simp only [hp, hc, ha] at h
    cases h
  | ok a =>
  simp only [hp, hc, ha] at h
  obtain rfl := Except.ok.inj h
  simp only [List.forall_mem_cons]
  exact ⟨isHardened_of_harden hp, isHardened_of_harden hc, isHardened_of_harden ha,
    fun _ hnone => absurd hnone List.not_mem_nil⟩

/-- The last two steps are never hardened. -/
theorem isHardened_last (change : ChangeType) {index : UInt32}
    (h : ExtendedKey.isHardened index = false) :
    ∀ i ∈ [change.index, index], ExtendedKey.isHardened i = false := by
  have hchange : ExtendedKey.isHardened change.index = false := by
    cases change with
    | external | internal => rfl
  exact List.forall_mem_cons.mpr ⟨hchange, List.forall_mem_singleton.mpr h⟩

end AccountKey

section

variable [KeySuite]

namespace ExtendedKey

/-! ## Walks -/

/-- A walk along two rows of steps is one walk after the other. -/
theorem descend_append (n : ExtendedKey) (path more : List UInt32) :
    n.descend (path ++ more) = (n.descend path).bind fun c => c.descend more := by
  induction path generalizing n with
  | nil => rfl
  | cons index path ih =>
    rw [List.cons_append, descend, descend]
    cases n.child index with
    | error e => rfl
    | ok c => exact ih c

/-- A child is one level below its parent, and no level is too deep for its number. -/
theorem depth_child {n c : ExtendedKey} {index : UInt32} (h : n.child index = .ok c) :
    c.depth.toNat = n.depth.toNat + 1 := by
  obtain ⟨hdepth, amount, key, chainCode, -, rfl⟩ := child_eq_ok h
  have hne : n.depth.toNat ≠ 255 := fun heq => hdepth (UInt8.toNat.inj heq)
  have hlt := n.depth.toNat_lt
  simp only [UInt8.toNat_add, UInt8.toNat_one]
  omega

/-- Where a walk arrives is as many levels deeper as it has steps. -/
theorem depth_descend {path : List UInt32} {n c : ExtendedKey} (h : n.descend path = .ok c) :
    c.depth.toNat = n.depth.toNat + path.length := by
  refine descend_induction (motive := fun path n c => c.depth.toNat = n.depth.toNat + path.length)
    (fun _ => rfl) (fun hchild ih => ?_) h
  rw [ih, depth_child hchild, List.length_cons]
  omega

/-! ## The public side -/

/-- The node itself, or its public side. -/
def side (includePrivate : Bool) (n : ExtendedKey) : ExtendedKey :=
  if includePrivate then n else n.neuter

theorem isPrivate_side (includePrivate : Bool) (n : ExtendedKey) :
    (n.side includePrivate).isPrivate = (n.isPrivate && includePrivate) := by
  cases includePrivate with
  | true => exact (Bool.and_true _).symm
  | false => exact (Bool.and_false _).symm

/-- The public side has all that is shown of a node. -/
theorem shown_side (includePrivate : Bool) (n : ExtendedKey) :
    (n.side includePrivate).publicKey = n.publicKey ∧
      (n.side includePrivate).chainCode = n.chainCode ∧
      (n.side includePrivate).depth = n.depth ∧
      (n.side includePrivate).parentFingerprint = n.parentFingerprint ∧
      (n.side includePrivate).childNumber = n.childNumber := by
  cases includePrivate with
  | true | false => exact ⟨rfl, rfl, rfl, rfl, rfl⟩

/-- The walk from either side of a node ends at that side of where the walk from the node ends, and
fails where it fails. -/
theorem descend_side (hcurve : KeySuite.IsAdditive) (includePrivate : Bool) (n : ExtendedKey)
    {path : List UInt32} (h : ∀ index ∈ path, isHardened index = false) :
    (n.side includePrivate).descend path = (n.descend path).map (side includePrivate) := by
  cases includePrivate with
  | false => exact descend_neuter hcurve n h
  | true =>
    show n.descend path = (n.descend path).map (side true)
    cases n.descend path with
    | error e => rfl
    | ok c => rfl

end ExtendedKey

namespace AccountKey

/-! ## Hardened steps -/

/-- The steps to an account are hardened exactly when its root has its private key. -/
theorem isHardened_of_below {root : ExtendedKey} {purpose coinType account : UInt32}
    {includePrivate : Bool} {a : AccountKey}
    (h : below root purpose coinType account includePrivate = .ok a) :
    ∀ index ∈ [a.start.purpose, a.start.coinType, a.start.account],
      ExtendedKey.isHardened index = root.isPrivate := by
  obtain ⟨key, hstart, hwalk, -⟩ := below_eq_ok h
  cases hroot : root.isPrivate with
  | true => exact isHardened_startBelow hstart hroot
  | false =>
    intro index hindex
    refine Bool.eq_false_iff.mpr fun hhard => ?_
    obtain ⟨e, he⟩ := ExtendedKey.descend_of_hardened hroot ⟨index, hindex, hhard⟩
    rw [hwalk] at he
    cases he

/-! ## With the private key and without it -/

/-- The steps to an address below a root and its text, or how the walk fails. -/
def outcome (root : ExtendedKey) (purpose coinType account : UInt32) (includePrivate : Bool)
    (change : ChangeType) (index : UInt32) (network : Network) :
    Except DerivationError (List UInt32 × String) :=
  (below root purpose coinType account includePrivate).bind fun a =>
    (a.deriveAddress change index network).map fun r => (r.path, r.text)

/-- **The choice does not matter** for what is found below a root: with it or without it, the walk
goes on from the account as from the node that the account is made of. -/
theorem outcome_eq (hcurve : KeySuite.IsAdditive) (root : ExtendedKey)
    (purpose coinType account : UInt32) (includePrivate : Bool) (change : ChangeType)
    (index : UInt32) (network : Network) :
    outcome root purpose coinType account includePrivate change index network =
      (startBelow root purpose coinType account).bind fun start =>
        (root.descend [start.purpose, start.coinType, start.account]).bind fun key =>
          if ExtendedKey.isHardened index then .error (.invalidChild index)
          else (key.descend [change.index, index]).map fun node =>
            (fullPath start ⟨change.index, index⟩, (node.address network.label).encode) := by
  unfold outcome below
  cases startBelow root purpose coinType account with
  | error e => rfl
  | ok start =>
    simp only [Except.bind]
    cases root.descend [start.purpose, start.coinType, start.account] with
    | error e => rfl
    | ok key =>
      simp only [deriveAddress]
      by_cases hhard : ExtendedKey.isHardened index = true
      · rw [if_pos hhard, if_pos hhard]
        rfl
      · rw [if_neg hhard, if_neg hhard]
        -- Neither of the two steps is hardened: the index was asked about, and the choice of change
        -- never is.
        have hwalk := ExtendedKey.descend_side hcurve includePrivate key
          (isHardened_last change (Bool.eq_false_iff.mpr hhard))
        rw [ExtendedKey.side] at hwalk
        rw [hwalk]
        cases key.descend [change.index, index] with
        | error e => rfl
        | ok node =>
          refine congrArg (fun k : PublicKey => Except.ok (_, CashAddress.encode ⟨_, _, k.hash160⟩)) ?_
          exact (ExtendedKey.shown_side includePrivate node).1

/-- Which account is found, and whether one is, does not depend on the choice. -/
theorem map_start_below (root : ExtendedKey) (purpose coinType account : UInt32)
    (includePrivate : Bool) :
    (below root purpose coinType account includePrivate).map AccountKey.start =
      (startBelow root purpose coinType account).bind fun start =>
        (root.descend [start.purpose, start.coinType, start.account]).map fun _ => start := by
  unfold below
  cases startBelow root purpose coinType account with
  | error e => rfl
  | ok start =>
    simp only [Except.bind]
    cases root.descend [start.purpose, start.coinType, start.account] with
    | error e => rfl
    | ok key => rfl

/-- **All steps in one go** lead from the root to the node of the address, or to the one whose
public side it is. -/
theorem exists_node_of_deriveAddress (hcurve : KeySuite.IsAdditive) {root : ExtendedKey}
    {purpose coinType account : UInt32} {includePrivate : Bool} {a : AccountKey}
    {change : ChangeType} {index : UInt32} {network : Network} {r : AccountAddress}
    (hbelow : below root purpose coinType account includePrivate = .ok a)
    (hderive : a.deriveAddress change index network = .ok r) :
    ∃ node, root.descend r.path = .ok node ∧ r.key = node.side includePrivate := by
  obtain ⟨key, -, hwalk, hside⟩ := below_eq_ok hbelow
  obtain ⟨hindex, hpath, hlast, -⟩ := deriveAddress_eq_ok hderive
  have hsteps : fullPath a.start ⟨change.index, index⟩ =
      [a.start.purpose, a.start.coinType, a.start.account] ++ [change.index, index] := rfl
  have hpublic := ExtendedKey.descend_side hcurve includePrivate key (isHardened_last change hindex)
  rw [ExtendedKey.side, ← hside, hlast] at hpublic
  rw [hpath, hsteps, ExtendedKey.descend_append, hwalk]
  cases hnode : key.descend [change.index, index] with
  | error e =>
    rw [hnode] at hpublic
    cases hpublic
  | ok node =>
    rw [hnode] at hpublic
    exact ⟨node, hnode, Except.ok.inj hpublic⟩

/-- **The steps that are kept are the steps that were walked**, and an account without its private
key shows the same addresses. Let an account be found below a root, and an address behind the
account. Walking all steps of the address from the root ends at a node which is five levels below
the root and has the public key, the chain code, the depth, the mark of its parent and the number of
the node that is kept with the address; this one has a private key exactly when the root has one and
the account was to have it. The first three of the steps are hardened exactly when the root has its
private key, the last two never are. And the text of the address is read back as the hash of the
key.

With the private key and without it the same accounts are found, and behind them the same steps and
the same texts, and where something fails it fails alike. -/
theorem path_of_deriveAddress (hcurve : KeySuite.IsAdditive) (root : ExtendedKey)
    (purpose coinType account : UInt32) (change : ChangeType) (index : UInt32) (network : Network) :
    (∀ includePrivate a r, below root purpose coinType account includePrivate = .ok a →
        a.deriveAddress change index network = .ok r →
        (∃ node, root.descend r.path = .ok node ∧ node.publicKey = r.key.publicKey ∧
            node.chainCode = r.key.chainCode ∧ node.depth = r.key.depth ∧
            node.depth.toNat = root.depth.toNat + 5 ∧
            node.parentFingerprint = r.key.parentFingerprint ∧
            node.childNumber = r.key.childNumber) ∧
          r.key.isPrivate = (root.isPrivate && includePrivate) ∧
          (∀ i ∈ r.path.take 3, hardenedStart ≤ i ↔ root.isPrivate = true) ∧
          (∀ i ∈ r.path.drop 3, i < hardenedStart) ∧
          CashAddress.decode r.text =
            .ok ⟨network.label, .pubKeyHash, r.key.publicKey.hash160⟩) ∧
      (below root purpose coinType account true).map AccountKey.start =
        (below root purpose coinType account false).map AccountKey.start ∧
      outcome root purpose coinType account true change index network =
        outcome root purpose coinType account false change index network := by
  refine ⟨fun includePrivate a r hbelow hderive => ?_, ?_, ?_⟩
  · obtain ⟨node, hfull, hkey⟩ := exists_node_of_deriveAddress hcurve hbelow hderive
    obtain ⟨hindex, hpath, -, haddress⟩ := deriveAddress_eq_ok hderive
    obtain ⟨hpublic, hchain, hdepth, hparent, hnumber⟩ := ExtendedKey.shown_side includePrivate node
    have hlevel := ExtendedKey.depth_descend hfull
    rw [hkey, hpath]
    rw [hpath] at hfull hlevel
    refine ⟨⟨node, hfull, hpublic.symm, hchain.symm, hdepth.symm, hlevel, hparent.symm, hnumber.symm⟩,
      ?_, fun i hi => ?_, fun i hi => ?_, ?_⟩
    · rw [ExtendedKey.isPrivate_side, ExtendedKey.isPrivate_descend hfull]
    · rw [← isHardened_of_below hbelow i hi]
      exact decide_eq_true_iff.symm
    · exact UInt32.not_le.mp (of_decide_eq_false (isHardened_last change hindex i hi))
    · obtain ⟨hne, hplain⟩ := Wallet.label_isPlain network
      rw [AccountAddress.text, haddress, hkey]
      exact CashAddress.decode_encode hne hplain
  · rw [map_start_below, map_start_below]
  · rw [outcome_eq hcurve, outcome_eq hcurve]

end AccountKey

end

/-! ## The steps to an address of a wallet -/

namespace AccountKey

/-- The keys on the way from the root of the seed `00 01 … 0f` to the address that a wallet shows,
and their points on the curve. -/
def sampleTable : List (PrivateKey × PublicKey) :=
  [(⟨105366245268346348601399826821003822098691517983742654654633135381666943167285, by decide,
      by decide⟩,
    ⟨26070491525757212273923430130929023832023083399656255554599993618152067728834,
      27475340966630338619946172401610299714452031745281566289223681642426902078081⟩),
    (⟨62670429676147932539665194073653706974678511486533028424169976200075079872575, by decide,
      by decide⟩,
    ⟨5880075609027228702911706737631103481122419934381605098825846005950459852176,
      58049775961861157213841988425944467210958202683340128551383387350796383741930⟩),
    (⟨63337814328167109531617765069579388441818175691844080057973889735875402771638, by decide,
      by decide⟩,
    ⟨3517779796711498922946541804112204639297883660474076970007572950494846155859,
      58403625436780012144237117347581330203770192976016827854702823350485859945260⟩),
    (⟨35700174837591516589806345446763321530738666619557790554513720729593987523930, by decide,
      by decide⟩,
    ⟨80488492605047745156664995191218588928159303757465299441375075038133888200245,
      34496547831028096137601884510477921359736622209461074895239163122150947453362⟩),
    (⟨40996193221333700534463202932330194139265538774602161144765702903967928730714, by decide,
      by decide⟩,
    ⟨78174491289642978249247050730135688875601605149176191410816825077665886145050,
      102629179502735056504460759051356667358081431747392144940676403966667740093335⟩),
    (⟨20516676262031152211045296035630425596005478537905090182834806698783058720455, by decide,
      by decide⟩,
    ⟨81561336866396727008394033744386131165306735144334994406532356754378552385739,
      46885889814156512311966337774354704332824582198129732088400618608802014911934⟩)]

theorem isAdditive_sampleTable : @KeySuite.IsAdditive (tableSuite sampleTable) :=
  isAdditive_tableSuite (by decide +kernel)

/-- The root of that seed. -/
def sampleRoot : ExtendedKey :=
  ⟨.secret ⟨105366245268346348601399826821003822098691517983742654654633135381666943167285, by decide,
      by decide⟩,
    ⟨[135, 61, 255, 129, 192, 47, 82, 86, 35, 253, 31, 229, 22, 126, 172, 58, 85, 160, 73, 222, 61, 49,
      75, 180, 46, 226, 39, 255, 237, 55, 213, 8], rfl⟩, 0, .zeros 4, 0, .mainnet⟩

def samplePath : List UInt32 :=
  [0x8000002c, 0x80000091, 0x80000000, 0, 255]

def sampleText : String :=
  "bitcoincash:qqyr4sjywp9huffuzhp76a7d9deze5vr5ywyv433rq"

/-- The table has the points of the curve, and what moves one key on to the next moves one point on
to the next. -/
theorem sampleTable_eq_curve :
    (∀ e ∈ sampleTable, @PrivateKey.publicKey Curve.secp256k1 e.1 = e.2) ∧
      ∀ e ∈ sampleTable.zip sampleTable.tail,
        Curve.secp256k1.shift e.1.2 ((e.2.1.scalar + curveOrder - e.1.1.scalar) % curveOrder) =
          some e.2.2 := by
  decide +kernel

theorem outcome_sampleRoot :
    @outcome (tableSuite sampleTable) sampleRoot 44 145 0 false .external 255 .mainnet =
      .ok (samplePath, sampleText) := by
  decide +kernel

/-- An account without its private key shows the address that it shows with it, and the steps that
are kept lead to its node, five levels down. -/
theorem path_of_deriveAddress_sampleRoot :
    @KeySuite.IsAdditive (tableSuite sampleTable) ∧
      (∀ e ∈ sampleTable, @PrivateKey.publicKey Curve.secp256k1 e.1 = e.2) ∧
      (∀ e ∈ sampleTable.zip sampleTable.tail,
        Curve.secp256k1.shift e.1.2 ((e.2.1.scalar + curveOrder - e.1.1.scalar) % curveOrder) =
          some e.2.2) ∧
      @outcome (tableSuite sampleTable) sampleRoot 44 145 0 true .external 255 .mainnet =
        .ok (samplePath, sampleText) ∧
      ∃ a r node, @below (tableSuite sampleTable) sampleRoot 44 145 0 false = .ok a ∧
        @deriveAddress (tableSuite sampleTable) a .external 255 .mainnet = .ok r ∧
        r.path = samplePath ∧ r.text = sampleText ∧
        @ExtendedKey.descend (tableSuite sampleTable) sampleRoot samplePath = .ok node ∧
        @ExtendedKey.publicKey (tableSuite sampleTable) node =
          @ExtendedKey.publicKey (tableSuite sampleTable) r.key ∧
        node.depth.toNat = 5 ∧ r.key.isPrivate = false := by
  obtain ⟨hwalk, -, hsame⟩ := @path_of_deriveAddress (tableSuite sampleTable) isAdditive_sampleTable
    sampleRoot 44 145 0 .external 255 .mainnet
  have hfound := outcome_sampleRoot
  refine ⟨isAdditive_sampleTable, sampleTable_eq_curve.1, sampleTable_eq_curve.2,
    hsame.trans hfound, ?_⟩
  unfold outcome at hfound
  cases hbelow : @below (tableSuite sampleTable) sampleRoot 44 145 0 false with
  | error e =>
    rw [hbelow] at hfound
    cases hfound
  | ok a =>
    rw [hbelow] at hfound
    cases hderive : @deriveAddress (tableSuite sampleTable) a .external 255 .mainnet with
    | error e =>
      simp only [Except.bind, hderive] at hfound
      cases hfound
    | ok r =>
      simp only [Except.bind, hderive] at hfound
      obtain ⟨hpath, htext⟩ := Prod.mk.inj (Except.ok.inj hfound)
      obtain ⟨⟨node, hnode, hkey, -, -, hdepth, -, -⟩, hprivate, -⟩ := hwalk false a r hbelow hderive
      rw [hpath] at hnode
      exact ⟨a, r, node, rfl, hderive, hpath, htext, hnode, hkey, hdepth,
        hprivate.trans (Bool.and_false _)⟩

end AccountKey

end CashWallet
