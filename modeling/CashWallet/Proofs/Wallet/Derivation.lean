import CashWallet.Proofs.Address.Codec
import CashWallet.Wallet.Basic

/-!
# `CashWallet/Proofs/Wallet/Derivation.lean` — the key behind the address that a wallet shows

A wallet keeps its phrase and the text of an address, and whoever signs walks the path from the
phrase again. **Both walks end at one node**, and a node below a root with a private key has a
private key (`ExtendedKey.privateKey?_descend`). So a wallet that could be made can sign, and the
address it shows is read back as the hash of the public side of the key that signs
(`Wallet.address_of_make`).

What is known of walks comes from what is known of one step. A child is the key of its parent moved
on by an amount, one level deeper (`ExtendedKey.child_eq_ok`); whatever a step keeps, a walk keeps
(`ExtendedKey.descend_induction`), be it the private key or the number of levels.

The text of an address is read back because the labels of the networks are plain, which is the only
thing that is asked of a network here.
-/

set_option autoImplicit false

namespace CashWallet

/-! ## Roots and labels -/

namespace ExtendedKey

theorem isSome_privateKey? (n : ExtendedKey) : n.privateKey?.isSome = n.isPrivate := by
  unfold privateKey? isPrivate
  cases n.key with
  | secret k | shown k => rfl

/-- A root has a private key: it is made of one. -/
theorem privateKey?_root {seed : Bytes} {network : Network} {n : ExtendedKey}
    (h : root seed network = .ok n) : n.privateKey?.isSome := by
  rw [root] at h
  by_cases hlen : seed.length < 16 ∨ 64 < seed.length
  · rw [if_pos hlen] at h
    cases h
  rw [if_neg hlen] at h
  generalize halves (Text.utf8 "Bitcoin seed") seed = pair at h
  obtain ⟨left, chainCode⟩ := pair
  simp only at h
  cases hkey : PrivateKey.ofBytes? left with
  | error e =>
    rw [hkey] at h
    cases h
  | ok k =>
    rw [hkey] at h
    simp only [Except.ok.injEq] at h
    rw [← h]
    rfl

end ExtendedKey

/-- The labels of networks are not empty and have no capitals, so that addresses are read back. -/
theorem Wallet.label_isPlain (network : Network) :
    network.label ≠ "" ∧ ∀ c ∈ network.label.toList, c.isUpper = false := by
  cases network with
  | mainnet | slp => exact ⟨by decide, by simp [Network.label, mainLabel]⟩
  | testnet => exact ⟨by decide, by simp [Network.label, testLabel]⟩

variable [KeySuite]

/-! ## Nodes with a private key -/

namespace ExtendedKey

/-- **What a child is**: the key of its parent moved on, one level deeper. -/
theorem child_eq_ok {n c : ExtendedKey} {index : UInt32} (h : n.child index = .ok c) :
    n.depth ≠ 255 ∧ ∃ amount key chainCode, NodeKey.tweak? n.key amount = some key ∧
      c = ⟨key, chainCode, n.depth + 1, n.fingerprint, index, n.network⟩ := by
  rw [child] at h
  by_cases hdepth : n.depth = 255
  · rw [if_pos hdepth] at h
    cases h
  rw [if_neg hdepth] at h
  by_cases hhard : (!n.isPrivate && isHardened index) = true
  · rw [if_pos hhard] at h
    cases h
  rw [if_neg hhard] at h
  -- The keyed hash is any pair of halves from here on: nothing may be computed.
  generalize halves n.chainCode.bytes (n.childData index) = pair at h
  obtain ⟨amount, chainCode⟩ := pair
  simp only at h
  cases hkey : NodeKey.tweak? n.key amount with
  | none =>
    rw [hkey] at h
    cases h
  | some key =>
    rw [hkey] at h
    exact ⟨hdepth, amount, key, chainCode, hkey, (Except.ok.inj h).symm⟩

/-- A child has a private key exactly when its parent has one. -/
theorem isPrivate_of_child {n c : ExtendedKey} {index : UInt32} (h : n.child index = .ok c) :
    c.isPrivate = n.isPrivate := by
  obtain ⟨-, amount, key, chainCode, hkey, rfl⟩ := child_eq_ok h
  unfold isPrivate
  cases hnode : n.key with
  | secret k | shown k =>
    rw [hnode, NodeKey.tweak?, Option.map_eq_some_iff] at hkey
    obtain ⟨moved, -, rfl⟩ := hkey
    rfl

/-- **Along a walk**: what holds where no step is taken, and is kept when a step is put in front,
holds of every walk that arrives. -/
theorem descend_induction {motive : List UInt32 → ExtendedKey → ExtendedKey → Prop}
    (nil : ∀ n, motive [] n n)
    (cons : ∀ {n next c : ExtendedKey} {index : UInt32} {path : List UInt32},
      n.child index = .ok next → motive path next c → motive (index :: path) n c)
    {path : List UInt32} :
    ∀ {n c : ExtendedKey}, n.descend path = .ok c → motive path n c := by
  induction path with
  | nil =>
    intro n c h
    cases h
    exact nil n
  | cons index path ih =>
    intro n c h
    rw [descend] at h
    cases hchild : n.child index with
    | error e =>
      rw [hchild] at h
      cases h
    | ok next =>
      rw [hchild] at h
      exact cons hchild (ih h)

/-- A walk keeps the private key, or the lack of one. -/
theorem isPrivate_descend {n c : ExtendedKey} {path : List UInt32} (h : n.descend path = .ok c) :
    c.isPrivate = n.isPrivate :=
  descend_induction (motive := fun _ n c => c.isPrivate = n.isPrivate) (fun _ => rfl)
    (fun hchild ih => ih.trans (isPrivate_of_child hchild)) h

/-- Every node below a node with a private key has one. -/
theorem privateKey?_descend {n c : ExtendedKey} {path : List UInt32} (hn : n.privateKey?.isSome)
    (h : n.descend path = .ok c) : c.privateKey?.isSome := by
  rw [isSome_privateKey?] at hn ⊢
  exact (isPrivate_descend h).trans hn

theorem publicKey_of_privateKey? {n : ExtendedKey} {k : PrivateKey}
    (h : n.privateKey? = some k) : n.publicKey = k.publicKey := by
  rw [privateKey?] at h
  rw [publicKey]
  cases hnode : n.key with
  | shown k' =>
    rw [hnode] at h
    cases h
  | secret k' =>
    rw [hnode, Option.some.injEq] at h
    rw [← h]

end ExtendedKey

/-! ## Accounts and their addresses -/

namespace AccountKey

/-- An account is where its steps lead, or the public side of that. -/
theorem below_eq_ok {root : ExtendedKey} {purpose coinType account : UInt32} {includePrivate : Bool}
    {a : AccountKey} (h : below root purpose coinType account includePrivate = .ok a) :
    ∃ key, startBelow root purpose coinType account = .ok a.start ∧
      root.descend [a.start.purpose, a.start.coinType, a.start.account] = .ok key ∧
      a.key = if includePrivate then key else key.neuter := by
  rw [below] at h
  cases hstart : startBelow root purpose coinType account with
  | error e =>
    rw [hstart] at h
    cases h
  | ok start =>
    rw [hstart] at h
    simp only at h
    cases hkey : root.descend [start.purpose, start.coinType, start.account] with
    | error e =>
      rw [hkey] at h
      cases h
    | ok key =>
      rw [hkey] at h
      obtain rfl := Except.ok.inj h
      exact ⟨key, rfl, hkey, rfl⟩

theorem privateKey?_below {root : ExtendedKey} {purpose coinType account : UInt32}
    {a : AccountKey} (hroot : root.privateKey?.isSome)
    (h : below root purpose coinType account true = .ok a) : a.key.privateKey?.isSome := by
  obtain ⟨key, -, hkey, hside⟩ := below_eq_ok h
  rw [hside, if_pos rfl]
  exact ExtendedKey.privateKey?_descend hroot hkey

/-- An address belongs to the node that is kept with it, which is below the account, and the steps
that are kept with it are those to the account and the two from there. -/
theorem deriveAddress_eq_ok {a : AccountKey} {change : ChangeType} {index : UInt32}
    {network : Network} {r : AccountAddress} (h : a.deriveAddress change index network = .ok r) :
    ExtendedKey.isHardened index = false ∧ r.path = fullPath a.start ⟨change.index, index⟩ ∧
      a.key.descend [change.index, index] = .ok r.key ∧ r.address = r.key.address network.label := by
  rw [deriveAddress] at h
  by_cases hhard : ExtendedKey.isHardened index = true
  · rw [if_pos hhard] at h
    cases h
  rw [if_neg hhard] at h
  cases hkey : a.key.descend [change.index, index] with
  | error e =>
    rw [hkey] at h
    cases h
  | ok key =>
    rw [hkey] at h
    obtain rfl := Except.ok.inj h
    exact ⟨Bool.eq_false_iff.mpr hhard, rfl, rfl, rfl⟩

end AccountKey

/-! ## Wallets -/

namespace Wallet

/-- The address of a wallet is that of the hash of a key that the node below has. -/
theorem deriveAddress_eq_ok {mnemonic : String} {config : WalletConfig} {a : AccountAddress}
    (h : deriveAddress mnemonic config = .ok a) :
    ∃ k, a.key.privateKey? = some k ∧
      a.address = ⟨config.network.label, .pubKeyHash, k.publicKey.hash160⟩ := by
  rw [deriveAddress] at h
  cases hparse : Mnemonic.parse mnemonic with
  | error e =>
    rw [hparse] at h
    cases h
  | ok m =>
  rw [hparse] at h
  simp only at h
  cases hroot : ExtendedKey.root m.seed config.network with
  | error e =>
    rw [hroot] at h
    cases h
  | ok root =>
  rw [hroot] at h
  simp only at h
  cases hbelow : AccountKey.below root walletPurpose config.network.coinType config.account true with
  | error e =>
    rw [hbelow] at h
    cases h
  | ok account =>
  rw [hbelow] at h
  obtain ⟨-, -, hkey, haddress⟩ := AccountKey.deriveAddress_eq_ok h
  have hsecret := ExtendedKey.privateKey?_descend
    (AccountKey.privateKey?_below (ExtendedKey.privateKey?_root hroot) hbelow) hkey
  obtain ⟨k, hk⟩ := Option.isSome_iff_exists.mp hsecret
  refine ⟨k, hk, ?_⟩
  rw [haddress, ExtendedKey.address, ExtendedKey.publicKey_of_privateKey? hk]

/-- What a wallet is made of: its phrase is the given one without the blanks at its ends, or a new
one, and its address is derived from the phrase. -/
theorem make_eq_ok_iff {entropy : Bytes} {text : String} {config : WalletConfig} {w : Wallet} :
    make entropy text config = .ok w ↔
      w.mnemonic = phraseOr entropy text ∧ w.config = config ∧
        (deriveAddress w.mnemonic config).map AccountAddress.text = .ok w.address := by
  unfold make
  generalize phraseOr entropy text = phrase
  constructor
  · intro h
    cases hderive : deriveAddress phrase config with
    | error e =>
      simp only [hderive] at h
      cases h
    | ok a =>
      simp only [hderive, Except.ok.injEq] at h
      obtain rfl := h
      exact ⟨rfl, rfl, congrArg (Except.map AccountAddress.text) hderive⟩
  · rintro ⟨rfl, rfl, haddress⟩
    cases hderive : deriveAddress w.mnemonic w.config with
    | error e =>
      rw [hderive] at haddress
      cases haddress
    | ok a =>
      rw [hderive] at haddress
      have htext : a.text = w.address := Except.ok.inj haddress
      simp only [hderive, htext]

/-- The key of the address is the one that signs. -/
theorem signingKey_of_deriveAddress {mnemonic : String} {config : WalletConfig} {a : AccountAddress}
    {k : PrivateKey} (h : deriveAddress mnemonic config = .ok a) (hkey : a.key.privateKey? = some k) :
    signingKey mnemonic config = .ok k := by
  unfold signingKey
  simp only [h, hkey]

/-- **The address that a wallet shows is that of the key that it signs with.** -/
theorem address_of_make {entropy : Bytes} {text : String} {config : WalletConfig} {w : Wallet}
    (h : make entropy text config = .ok w) :
    ∃ k, signingKey w.mnemonic w.config = .ok k ∧
      CashAddress.decode w.address =
        .ok ⟨w.config.network.label, .pubKeyHash, k.publicKey.hash160⟩ := by
  obtain ⟨-, rfl, haddress⟩ := make_eq_ok_iff.mp h
  cases hderive : deriveAddress w.mnemonic w.config with
  | error e =>
    rw [hderive] at haddress
    cases haddress
  | ok a =>
    rw [hderive] at haddress
    have htext : a.text = w.address := Except.ok.inj haddress
    obtain ⟨k, hk, hplace⟩ := deriveAddress_eq_ok hderive
    obtain ⟨hne, hplain⟩ := label_isPlain w.config.network
    refine ⟨k, signingKey_of_deriveAddress hderive hk, ?_⟩
    rw [← htext, AccountAddress.text, hplace]
    exact CashAddress.decode_encode hne hplain

end Wallet

end CashWallet
