import CashWallet.Proofs.Wallet.Outcome
import CashWallet.Wallet.Session

/-!
# `CashWallet/Proofs/Wallet/Session.lean` — the first wallet stays

A session starts without a wallet and takes any calls, in any order, good ones and bad ones. **It
gets the first wallet that one of them offers and keeps it**: a call offers one when it starts a
session, its parameters can be read, and a wallet can be made of them (`Call.Offers`). All other
calls leave the session as it is.

What one call does to a session is said once (`Call.next_eq`), and what a run does to it is the same
law again (`Session.after_eq`): the wallet there is, or else the first that is offered. A call sees
nothing of the run before it but that wallet, so its answer is that of an empty session
(`Call.reply_empty`) or of a session with a wallet (`Call.reply_wallet`).

A start that comes later is answered as a success, although its parameters are not looked at beyond
whether they can be read: the wallet stays the one that was first. A start that fails leaves no
trace, so it can be tried again.

The entropy for a new phrase is part of a call, as it is drawn when the call is made. It is looked
at only by a call that brings no phrase of its own.
-/

set_option autoImplicit false

namespace CashWallet

/-- A call on a session, with the entropy for a phrase that may have to be made. -/
structure Call where
  entropy : Bytes
  name : String
  payload : String

/-- A name of a method is a name. -/
theorem Call.isEmpty_of_method {name : String} {method : Method}
    (h : Method.ofName? name = some method) :
    name.isEmpty = false := by
  refine Bool.eq_false_iff.mpr fun hempty => ?_
  obtain rfl : name = "" := by simpa using hempty
  cases h

section

variable [KeySuite]

namespace Session

/-- A session keeps the wallet that could be made. -/
theorem install_empty (entropy : Bytes) (text : String) (config : WalletConfig) :
    install entropy text config none =
      (Wallet.make entropy text config, (Wallet.make entropy text config).toOption) := by
  delta install
  generalize Wallet.make entropy text config = made
  cases made with
  | error e => rfl
  | ok w => rfl

theorem install_wallet (entropy : Bytes) (text : String) (config : WalletConfig) (w : Wallet) :
    install entropy text config (some w) = (.ok w, some w) :=
  rfl

end Session

namespace Call

/-- What a session answers to the call. -/
def reply (c : Call) (s : Session) : String :=
  (Session.call c.entropy c.name c.payload s).1

/-- The session behind the call. -/
def next (c : Call) (s : Session) : Session :=
  (Session.call c.entropy c.name c.payload s).2

/-- The call starts a session, and this is the wallet that it can start one with. -/
inductive Offers (c : Call) (w : Wallet) : Prop
  | intro {p : CallParams} (hmethod : Method.ofName? c.name = some .start)
    (hparams : CallParams.parse c.payload = .ok p)
    (hmake : Wallet.make c.entropy p.param1 .standard = .ok w)

/-- The wallet that the call offers. -/
def offer? (c : Call) : Option Wallet :=
  match Method.ofName? c.name, CallParams.parse c.payload with
  | some .start, .ok p => (Wallet.make c.entropy p.param1 .standard).toOption
  | _, _ => none

theorem offer?_eq_some_iff {c : Call} {w : Wallet} : c.offer? = some w ↔ c.Offers w := by
  constructor
  · intro h
    unfold offer? at h
    split at h
    · rename_i p hmethod hparams
      cases hmake : Wallet.make c.entropy p.param1 .standard with
      | error e =>
        rw [hmake] at h
        cases h
      | ok made =>
        rw [hmake] at h
        obtain rfl := Option.some.inj h
        exact ⟨hmethod, hparams, hmake⟩
    · cases h
  · rintro ⟨hmethod, hparams, hmake⟩
    simp only [offer?, hmethod, hparams, hmake]
    rfl

theorem offer?_eq_none_iff {c : Call} : c.offer? = none ↔ ∀ w, ¬ c.Offers w := by
  simp only [← offer?_eq_some_iff, Option.eq_none_iff_forall_ne_some, ne_eq]

/-! ## One call -/

theorem call_of_method {c : Call} {method : Method} (h : Method.ofName? c.name = some method)
    (s : Session) :
    c.reply s = (Session.run c.entropy method c.payload s).1.pretty ∧
      c.next s = (Session.run c.entropy method c.payload s).2 := by
  simp only [reply, next, Session.call, isEmpty_of_method h, Bool.false_eq_true, if_false, h,
    and_self]

/-- A call that does not start a session leaves the session as it is. -/
theorem next_of_ne_start {c : Call} (h : Method.ofName? c.name ≠ some .start) (s : Session) :
    c.next s = s := by
  cases hmethod : Method.ofName? c.name with
  | none =>
    simp only [next, Session.call, hmethod]
    split
    · rfl
    · rfl
  | some method =>
    rw [(call_of_method hmethod s).2]
    cases method with
    | start => exact absurd hmethod h
    | mnemonic | address => rfl
    | sign =>
      rw [Session.run]
      cases CallParams.parse c.payload with
      | error e => rfl
      | ok p => rfl

/-- **What a call does to a session**: the wallet there is stays, and an empty session gets the
wallet that the call offers. -/
theorem next_eq (c : Call) (s : Session) : c.next s = s.or c.offer? := by
  by_cases hmethod : Method.ofName? c.name = some .start
  · rw [(call_of_method hmethod s).2, offer?, hmethod, Session.run]
    cases CallParams.parse c.payload with
    | error e => exact Option.or_none.symm
    | ok p =>
      cases s with
      | some w => simp only [Session.startReply, Session.install_wallet, Option.some_or]
      | none =>
        simp only [Session.startReply, Session.install_empty]
        cases Wallet.make c.entropy p.param1 .standard with
        | error e => rfl
        | ok w => rfl
  · have hoffer : c.offer? = none :=
      offer?_eq_none_iff.mpr fun w ⟨hstart, _, _⟩ => hmethod hstart
    rw [next_of_ne_start hmethod, hoffer, Option.or_none]

/-- What an empty session answers. -/
theorem reply_empty (c : Call) :
    (Method.ofName? c.name = some .mnemonic ∨ Method.ofName? c.name = some .address →
        c.reply none = Reply.pretty ⟨2, "Wallet not initialized", ""⟩) ∧
      (∀ p, Method.ofName? c.name = some .sign → CallParams.parse c.payload = .ok p →
        c.reply none = Reply.pretty ⟨2, "Wallet not initialized", ""⟩) ∧
      (∀ p e, Method.ofName? c.name = some .start → CallParams.parse c.payload = .ok p →
        Wallet.make c.entropy p.param1 .standard = .error e →
        c.reply none = Reply.pretty ⟨6, e.message, ""⟩) ∧
      ∀ w, c.Offers w → c.reply none = Reply.pretty ⟨0, "", ""⟩ := by
  refine ⟨?_, fun p hmethod hparams => ?_, fun p e hmethod hparams hmake => ?_, ?_⟩
  · rintro (hmethod | hmethod)
    · rw [(call_of_method hmethod none).1, Session.run]
      rfl
    · rw [(call_of_method hmethod none).1, Session.run]
      rfl
  · rw [(call_of_method hmethod none).1, Session.run, hparams]
    rfl
  · rw [(call_of_method hmethod none).1, Session.run]
    simp only [hparams, Session.startReply, Session.install_empty, hmake]
    rfl
  · rintro w ⟨hmethod, hparams, hmake⟩
    rw [(call_of_method hmethod none).1, Session.run]
    simp only [hparams, Session.startReply, Session.install_empty, hmake]
    rfl

/-- What a session with a wallet answers. -/
theorem reply_wallet (c : Call) (w : Wallet) :
    (Method.ofName? c.name = some .mnemonic →
        c.reply (some w) = Reply.pretty ⟨0, "", w.mnemonic⟩) ∧
      (Method.ofName? c.name = some .address →
        c.reply (some w) = Reply.pretty ⟨0, "", w.address⟩) ∧
      ∀ p, Method.ofName? c.name = some .start → CallParams.parse c.payload = .ok p →
        c.reply (some w) = Reply.pretty ⟨0, "", ""⟩ := by
  refine ⟨fun hmethod => ?_, fun hmethod => ?_, fun p hmethod hparams => ?_⟩
  · rw [(call_of_method hmethod _).1, Session.run]
    rfl
  · rw [(call_of_method hmethod _).1, Session.run]
    rfl
  · rw [(call_of_method hmethod _).1, Session.run, hparams]
    rfl

end Call

/-! ## Many calls -/

namespace Session

/-- The session after some calls. -/
def after (s : Session) (calls : List Call) : Session :=
  calls.foldl (fun s c => c.next s) s

/-- **What a run does to a session** is what one call does to it. -/
theorem after_eq (calls : List Call) :
    ∀ s : Session, s.after calls = s.or (calls.findSome? Call.offer?) := by
  induction calls with
  | nil => exact fun s => Option.or_none.symm
  | cons c rest ih =>
    intro s
    have hstep : s.after (c :: rest) = (c.next s).after rest := rfl
    rw [hstep, ih, Call.next_eq, Option.or_assoc, List.findSome?_cons]
    cases c.offer? with
    | none => rfl
    | some w => rfl

theorem after_append (s : Session) (calls more : List Call) :
    s.after (calls ++ more) = (s.after calls).after more :=
  List.foldl_append

/-- The wallet of a session is the first that is offered. -/
theorem after_empty_eq_some_iff {calls : List Call} {w : Wallet} :
    after none calls = some w ↔ ∃ early first late, calls = early ++ first :: late ∧
      (∀ c ∈ early, ∀ v, ¬ c.Offers v) ∧ first.Offers w := by
  rw [after_eq, Option.none_or, List.findSome?_eq_some_iff]
  simp only [Call.offer?_eq_some_iff, Call.offer?_eq_none_iff]
  constructor
  · rintro ⟨early, first, late, hcalls, hfirst, hearly⟩
    exact ⟨early, first, late, hcalls, hearly, hfirst⟩
  · rintro ⟨early, first, late, hcalls, hearly, hfirst⟩
    exact ⟨early, first, late, hcalls, hfirst, hearly⟩

theorem after_empty_eq_none_iff {calls : List Call} :
    after none calls = none ↔ ∀ c ∈ calls, ∀ w, ¬ c.Offers w := by
  rw [after_eq, Option.none_or, List.findSome?_eq_none_iff]
  simp only [Call.offer?_eq_none_iff]

/-- **The first wallet stays**, at every place in every run that starts without a wallet. The wallet
of the session is the one that the first offering call before offered, and whatever comes later it
stays. A call that does not start a session leaves it as it is.

As long as there is none, asking for the phrase or the address, and asking for a signature with
parameters that can be read, is answered with number 2. A start whose phrase makes no wallet is
answered with number 6, and where no wallet is offered none is there afterwards.

As soon as there is one, its phrase and its address are the answers, and another start with
parameters that can be read is answered with success. The phrase is the one that the offering call
gave, without the blanks at its ends, or a new one where it gave nothing else. -/
theorem first_wallet_stays (before : List Call) (c : Call) :
    (∀ w, after none before = some w ↔ ∃ early first late, before = early ++ first :: late ∧
        (∀ e ∈ early, ∀ v, ¬ e.Offers v) ∧ first.Offers w) ∧
      (∀ w, after none before = some w → ∀ later, after none (before ++ later) = some w) ∧
      (Method.ofName? c.name ≠ some .start → after none (before ++ [c]) = after none before) ∧
      (after none before = none →
        (Method.ofName? c.name = some .mnemonic ∨ Method.ofName? c.name = some .address →
            c.reply (after none before) = Reply.pretty ⟨2, "Wallet not initialized", ""⟩) ∧
          (∀ p, Method.ofName? c.name = some .sign → CallParams.parse c.payload = .ok p →
            c.reply (after none before) = Reply.pretty ⟨2, "Wallet not initialized", ""⟩) ∧
          (∀ w, c.Offers w → c.reply (after none before) = Reply.pretty ⟨0, "", ""⟩ ∧
            after none (before ++ [c]) = some w) ∧
          (∀ p e, Method.ofName? c.name = some .start → CallParams.parse c.payload = .ok p →
            Wallet.make c.entropy p.param1 .standard = .error e →
            c.reply (after none before) = Reply.pretty ⟨6, e.message, ""⟩) ∧
          ((∀ w, ¬ c.Offers w) → after none (before ++ [c]) = none)) ∧
      ∀ w, after none before = some w →
        (Method.ofName? c.name = some .mnemonic →
            c.reply (after none before) = Reply.pretty ⟨0, "", w.mnemonic⟩) ∧
          (Method.ofName? c.name = some .address →
            c.reply (after none before) = Reply.pretty ⟨0, "", w.address⟩) ∧
          (∀ p, Method.ofName? c.name = some .start → CallParams.parse c.payload = .ok p →
            c.reply (after none before) = Reply.pretty ⟨0, "", ""⟩) ∧
          ∃ first ∈ before, ∃ p, Method.ofName? first.name = some .start ∧
            CallParams.parse first.payload = .ok p ∧
            w.mnemonic = Wallet.phraseOr first.entropy p.param1 ∧ w.config = .standard ∧
            (Wallet.deriveAddress w.mnemonic .standard).map AccountAddress.text =
              .ok w.address := by
  have hnext : after none (before ++ [c]) = c.next (after none before) := after_append none before [c]
  refine ⟨fun w => after_empty_eq_some_iff, fun w hw later => ?_, fun hmethod => ?_, fun hnone => ?_,
    fun w hw => ?_⟩
  · rw [after_append, hw, after_eq, Option.some_or]
  · rw [hnext, Call.next_of_ne_start hmethod]
  · rw [hnext, hnone]
    obtain ⟨hask, hsign, hfail, hstart⟩ := c.reply_empty
    refine ⟨hask, hsign, fun w hoffer => ⟨hstart w hoffer, ?_⟩, hfail, fun hoffer => ?_⟩
    · rw [Call.next_eq, Option.none_or, Call.offer?_eq_some_iff.mpr hoffer]
    · rw [Call.next_eq, Option.none_or, Call.offer?_eq_none_iff.mpr hoffer]
  · obtain ⟨early, first, late, hbefore, -, hmethod, hparams, hmake⟩ := after_empty_eq_some_iff.mp hw
    obtain ⟨hmnemonic, hconfig, haddress⟩ := Wallet.make_eq_ok_iff.mp hmake
    obtain ⟨hphrase, htext, hstart⟩ := c.reply_wallet w
    rw [hw]
    exact ⟨hphrase, htext, hstart, first, hbefore ▸ List.mem_append_right early List.mem_cons_self, _,
      hmethod, hparams, hmnemonic, hconfig, haddress⟩

end Session

end

namespace Session

open Wallet (sampleSuite samplePhrase sampleWallet)

/-- The phrase of the sample wallet, between blanks, as the parameters of a call. -/
def samplePayload : String :=
  "\x7b\"param1\":\"  " ++ samplePhrase ++ " \"\x7d"

/-- Parameters that cannot be read, and a phrase that makes no wallet. -/
def sampleFailures : List Call :=
  [⟨[], "M1", "\x7b"⟩, ⟨[], "M1", "\x7b\"param1\":\"bad words\"\x7d"⟩]

/-- The phrase of the sample wallet behind the failures, and no phrase at all. -/
def sampleStarts : List Call :=
  sampleFailures ++ [⟨[], "initialize", samplePayload⟩, ⟨[], "M1", ""⟩]

theorem offers_samplePayload :
    @Call.Offers sampleSuite ⟨[], "initialize", samplePayload⟩ sampleWallet := by
  have hparams : CallParams.parse samplePayload = .ok ⟨"  " ++ samplePhrase ++ " ", "", "", ""⟩ := by
    decide +kernel
  have hphrase : Wallet.phraseOr [] ("  " ++ samplePhrase ++ " ") =
      Wallet.phraseOr [] samplePhrase := by
    decide +kernel
  obtain ⟨hmnemonic, hmade⟩ :=
    (@Wallet.make_eq_ok_iff sampleSuite _ _ _ _).mp Wallet.sampleWallet_eq_ok.1
  exact @Call.Offers.intro sampleSuite _ _ _ (by decide) hparams
    ((@Wallet.make_eq_ok_iff sampleSuite _ _ _ _).mpr ⟨hmnemonic.trans hphrase.symm, hmade⟩)

theorem not_offers_sampleFailures : ∀ c ∈ sampleFailures, ∀ w, ¬ @Call.Offers sampleSuite c w := by
  have hread : @Call.offer? sampleSuite ⟨[], "M1", "\x7b"⟩ = none := by decide +kernel
  have hmake : @Call.offer? sampleSuite ⟨[], "M1", "\x7b\"param1\":\"bad words\"\x7d"⟩ = none := by
    decide +kernel
  exact List.forall_mem_cons.mpr ⟨(@Call.offer?_eq_none_iff sampleSuite _).mp hread,
    List.forall_mem_singleton.mpr ((@Call.offer?_eq_none_iff sampleSuite _).mp hmake)⟩

/-- Two starts fail, and a call for the address with them; the third is the first that succeeds, and
its phrase is there after the fourth. -/
theorem first_wallet_stays_samplePhrase :
    @after sampleSuite none sampleFailures = none ∧
      @Call.reply sampleSuite ⟨[], "M3", ""⟩ (@after sampleSuite none sampleFailures) =
        Reply.pretty ⟨2, "Wallet not initialized", ""⟩ ∧
      @after sampleSuite none sampleStarts = some sampleWallet ∧
      @Call.reply sampleSuite ⟨[], "M2", ""⟩ (@after sampleSuite none sampleStarts) =
        Reply.pretty ⟨0, "", samplePhrase⟩ := by
  have hempty := (@after_empty_eq_none_iff sampleSuite _).mpr not_offers_sampleFailures
  obtain ⟨-, -, -, hnone, -⟩ := @first_wallet_stays sampleSuite sampleFailures ⟨[], "M3", ""⟩
  obtain ⟨hfirst, -, -, -, hsome⟩ := @first_wallet_stays sampleSuite sampleStarts ⟨[], "M2", ""⟩
  have hwallet := (hfirst sampleWallet).mpr
    ⟨sampleFailures, _, [⟨[], "M1", ""⟩], rfl, not_offers_sampleFailures, offers_samplePayload⟩
  exact ⟨hempty, (hnone hempty).1 (.inr (by decide)), hwallet, (hsome _ hwallet).1 (by decide)⟩

end Session

end CashWallet
