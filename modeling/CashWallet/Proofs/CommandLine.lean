import CashWallet.CommandLine
import CashWallet.Proofs.Wallet.Session
import CashWallet.Proofs.Wallet.Shapes

/-!
# `CashWallet/Proofs/CommandLine.lean` — the two spellings of a method

A method has a short code and a name, and a call takes either for the other (`callOn_code`). A run
does not: before the call it makes a wallet of the phrase in its environment, unless the method is
spelled with the short code of the start. **Under its name, a start meets a wallet that is already
there, or it never comes to the call**; under its code it is the first. `sameAnswer_iff` says for
which phrases and parameters this shows.

There are three cases, each a lemma of its own:

* for every method but the start, and for the start without a phrase, both spellings make the same
  run (`run_code`);
* with a phrase that makes no wallet, the name ends the run before the call, and prints nothing
  where the code has an answer (`not_sameAnswer_start`);
* with a phrase that makes one, the name is answered with success, and the code with what comes of
  the phrase among its own parameters (`sameAnswer_start_iff`).

The entropy of a run counts only where a phrase has to be made (`run_congr`), so that two runs that
make none can be compared whatever their entropy. That nothing is made is a condition on the texts
alone (`DrawsPhrase`), and it is asked of both runs, because two new phrases would not be the same.
-/

set_option autoImplicit false

namespace CashWallet

/-! ## The spellings -/

namespace Method

/-- The short code of a method. -/
def code : Method → String
  | start => "M1"
  | mnemonic => "M2"
  | address => "M3"
  | sign => "M4"

def name : Method → String
  | start => "initialize"
  | mnemonic => "mnemonic"
  | address => "address"
  | sign => "sign"

/-- Every method has two spellings, and no text spells two methods. -/
theorem ofName?_eq_some_iff {text : String} {m : Method} :
    ofName? text = some m ↔ text = m.code ∨ text = m.name := by
  constructor
  · intro h
    unfold ofName? at h
    split at h
    · cases h
      assumption
    · split at h
      · cases h
        assumption
      · split at h
        · cases h
          assumption
        · split at h
          · cases h
            assumption
          · cases h
  · cases m <;> rintro (rfl | rfl) <;> rfl

theorem code_eq_start_iff {m : Method} : m.code = "M1" ↔ m = .start := by
  cases m <;> decide

theorem name_ne_code (m n : Method) : m.name ≠ n.code := by
  cases m <;> cases n <;> decide

end Method

/-! ## Phrases that are given -/

namespace Wallet

/-- There is nothing in the text but blanks, so that a phrase has to be made. -/
def IsBlank (text : String) : Prop :=
  (Text.trimChars text.toList).isEmpty = true

instance (text : String) : Decidable (IsBlank text) :=
  inferInstanceAs (Decidable (_ = true))

theorem phraseOr_of_not_isBlank {text : String} (h : ¬ IsBlank text) (entropy : Bytes) :
    phraseOr entropy text = Text.trim text :=
  if_neg h

variable [KeySuite]

/-- A wallet can be made of the text as it is. -/
def GrowsFrom (text : String) : Prop :=
  ∃ a, deriveAddress (Text.trim text) .standard = .ok a

theorem not_growsFrom_of_parse {text : String} {e : MnemonicError}
    (h : Mnemonic.parse (Text.trim text) = .error e) : ¬ GrowsFrom text := by
  rintro ⟨a, ha⟩
  unfold deriveAddress at ha
  rw [h] at ha
  cases ha

/-- A phrase that is given leaves nothing to the entropy. -/
theorem make_congr {text : String} (h : ¬ IsBlank text) (e₁ e₂ : Bytes) (config : WalletConfig) :
    make e₁ text config = make e₂ text config := by
  have hphrase : phraseOr e₁ text = phraseOr e₂ text := by
    rw [phraseOr_of_not_isBlank h, phraseOr_of_not_isBlank h]
  unfold make
  rw [hphrase]

/-- Where a phrase is given, whether it makes a wallet does not depend on the entropy. -/
theorem growsFrom_iff {text : String} (h : ¬ IsBlank text) (entropy : Bytes) :
    GrowsFrom text ↔ ∃ w, make entropy text .standard = .ok w := by
  have hphrase := phraseOr_of_not_isBlank h entropy
  constructor
  · rintro ⟨a, ha⟩
    exact ⟨⟨Text.trim text, .standard, a.text⟩, make_eq_ok_iff.mpr
      ⟨hphrase.symm, rfl, congrArg (Except.map AccountAddress.text) ha⟩⟩
  · rintro ⟨w, hw⟩
    obtain ⟨hmnemonic, -, haddress⟩ := make_eq_ok_iff.mp hw
    rw [hmnemonic, hphrase] at haddress
    cases hderive : deriveAddress (Text.trim text) .standard with
    | error e =>
      rw [hderive] at haddress
      cases haddress
    | ok a => exact ⟨a, hderive⟩

end Wallet

/-! ## Answers that are the same -/

namespace CommandLine

/-- The same is printed, and the runs end alike. -/
def SameAnswer (a b : RunResult) : Prop :=
  a.output = b.output ∧ a.succeeded = b.succeeded

/-- The text of an answer tells the answer, so the same text is the same answer. -/
theorem sameAnswer_answer_iff {r₁ r₂ : Reply} :
    SameAnswer ⟨r₁.isSuccess, r₁.pretty ++ "\n", ""⟩ ⟨r₂.isSuccess, r₂.pretty ++ "\n", ""⟩ ↔
      r₁ = r₂ := by
  constructor
  · rintro ⟨houtput, -⟩
    have hpretty : r₁.pretty = r₂.pretty := (String.append_left_inj "\n").mp houtput
    have hparse := r₁.parse?_pretty
    rw [hpretty, r₂.parse?_pretty] at hparse
    exact (Option.some.inj hparse).symm
  · rintro rfl
    exact ⟨rfl, rfl⟩

end CommandLine

section

/-! ## What a run prints -/

variable [KeySuite]

namespace Session

/-- A session without a wallet is started by making one. -/
theorem startReply_empty (entropy : Bytes) (text : String) :
    (∀ w, Wallet.make entropy text .standard = .ok w →
        startReply entropy text none = (.success "", some w)) ∧
      ∀ e, Wallet.make entropy text .standard = .error e →
        startReply entropy text none = (.failure .initFailed e.message, none) := by
  refine ⟨fun w hmake => ?_, fun e hmake => ?_⟩
  · simp only [startReply, install_empty, hmake]
    rfl
  · simp only [startReply, install_empty, hmake]
    rfl

theorem startReply_wallet (entropy : Bytes) (text : String) (w : Wallet) :
    startReply entropy text (some w) = (.success "", some w) :=
  rfl

theorem startReply_congr {text : String} (h : ¬ Wallet.IsBlank text) (e₁ e₂ : Bytes) :
    startReply e₁ text none = startReply e₂ text none := by
  simp only [startReply, install_empty, Wallet.make_congr h e₁ e₂]

theorem run_congr {m : Method} {payload : String} {s : Session}
    (h : ∀ p, s = none → m = .start → CallParams.parse payload = .ok p →
      ¬ Wallet.IsBlank p.param1) (e₁ e₂ : Bytes) : run e₁ m payload s = run e₂ m payload s := by
  cases m with
  | mnemonic | address | sign => rfl
  | start =>
    cases hparams : CallParams.parse payload with
    | error e => simp only [run, hparams]
    | ok p =>
      simp only [run, hparams]
      cases s with
      | some w => rfl
      | none => exact startReply_congr (h p rfl rfl hparams) e₁ e₂

/-- A session with a wallet starts as often as one asks; one without has to make it. -/
theorem run_start_eq_iff (entropy : Bytes) (payload : String) (w : Wallet) :
    (run entropy .start payload none).1 = (run entropy .start payload (some w)).1 ↔
      ∀ p, CallParams.parse payload = .ok p →
        ∃ v, Wallet.make entropy p.param1 .standard = .ok v := by
  cases hparams : CallParams.parse payload with
  | error e =>
    simp only [run, hparams]
    refine iff_of_true trivial fun _ h => ?_
    cases h
  | ok p =>
    simp only [run, hparams, Except.ok.injEq, forall_eq']
    obtain ⟨hstart, hfail⟩ := startReply_empty entropy p.param1
    cases hmake : Wallet.make entropy p.param1 .standard with
    | ok v =>
      rw [hstart v hmake]
      exact ⟨fun _ => ⟨v, rfl⟩, fun _ => rfl⟩
    | error e =>
      rw [hfail e hmake, startReply_wallet]
      have hreply : Reply.failure .initFailed e.message ≠ .success "" := fun h =>
        absurd (congrArg Reply.errorId h) (by decide : (6 : Int32) ≠ 0)
      refine iff_of_false hreply ?_
      rintro ⟨v, hv⟩
      cases hv

end Session

namespace CommandLine

/-- The call is answered under a spelling of the method. -/
theorem callOn_eq {spelling : String} {m : Method} (h : Method.ofName? spelling = some m)
    (entropy : Bytes) (payload : String) (s : Session) :
    callOn entropy spelling payload s =
      ⟨(Session.run entropy m payload s).1.isSuccess,
        (Session.run entropy m payload s).1.pretty ++ "\n", ""⟩ := by
  obtain ⟨hreply, -⟩ := Call.call_of_method (c := ⟨entropy, spelling, payload⟩) h s
  rw [Call.reply] at hreply
  simp only [callOn, hreply, Reply.parse?_pretty]

theorem callOn_congr {spelling payload : String} {s : Session}
    (h : ∀ p, s = none → Method.ofName? spelling = some .start →
      CallParams.parse payload = .ok p → ¬ Wallet.IsBlank p.param1) (e₁ e₂ : Bytes) :
    callOn e₁ spelling payload s = callOn e₂ spelling payload s := by
  have hcall : Session.call e₁ spelling payload s = Session.call e₂ spelling payload s := by
    unfold Session.call
    cases hmethod : Method.ofName? spelling with
    | none => rfl
    | some m =>
      have hrun : Session.run e₁ m payload s = Session.run e₂ m payload s := by
        refine Session.run_congr (fun p hnone hstart => ?_) e₁ e₂
        exact h p hnone (hmethod.trans (congrArg some hstart))
      simp only [hrun]
  simp only [callOn, hcall]

/-- Before or in the call, the run makes a new phrase of its entropy. -/
inductive DrawsPhrase (spelling payload : String) (phrase : Option String) : Prop
  | before (hspelling : spelling ≠ "M1") (hphrase : phrase.getD "" ≠ "")
    (hblank : Wallet.IsBlank (phrase.getD ""))
  | call {p : CallParams} (hfresh : spelling = "M1" ∨ phrase.getD "" = "")
    (hmethod : Method.ofName? spelling = some .start)
    (hparams : CallParams.parse payload = .ok p) (hblank : Wallet.IsBlank p.param1)

variable {phrase : Option String}

theorem run_two (entropy : Bytes) (spelling payload : String) (phrase : Option String) :
    run entropy [spelling, payload] phrase =
      if spelling ≠ "M1" ∧ phrase.getD "" ≠ "" then
        match Session.startReply entropy (phrase.getD "") none with
        | (reply, s) =>
          if reply.isSuccess then callOn entropy spelling payload s
          else ⟨false, "", reply.pretty ++ "\n"⟩
      else callOn entropy spelling payload none :=
  rfl

/-- Without a phrase, and under the code of the start, a run calls on a session without a wallet. -/
theorem run_of_fresh {spelling : String} (h : spelling = "M1" ∨ phrase.getD "" = "")
    (entropy : Bytes) (payload : String) :
    run entropy [spelling, payload] phrase = callOn entropy spelling payload none := by
  rw [run_two, if_neg]
  rintro ⟨hspelling, hphrase⟩
  rcases h with h | h
  · exact hspelling h
  · exact hphrase h

/-- With a phrase, a run calls on the wallet of the phrase or reports that there is none. -/
theorem run_of_phrase {spelling : String} (hspelling : spelling ≠ "M1")
    (hphrase : phrase.getD "" ≠ "") (entropy : Bytes) (payload : String) :
    (∀ w, Wallet.make entropy (phrase.getD "") .standard = .ok w →
        run entropy [spelling, payload] phrase = callOn entropy spelling payload (some w)) ∧
      ∀ e, Wallet.make entropy (phrase.getD "") .standard = .error e →
        run entropy [spelling, payload] phrase =
          ⟨false, "", (Reply.failure .initFailed e.message).pretty ++ "\n"⟩ := by
  obtain ⟨hstart, hfail⟩ := Session.startReply_empty entropy (phrase.getD "")
  refine ⟨fun w hmake => ?_, fun e hmake => ?_⟩
  · rw [run_two, if_pos ⟨hspelling, hphrase⟩, hstart w hmake]
    exact if_pos rfl
  · rw [run_two, if_pos ⟨hspelling, hphrase⟩, hfail e hmake]
    exact if_neg Bool.false_ne_true

/-- **A run that makes no phrase does not depend on its entropy.** -/
theorem run_congr {spelling payload : String} (h : ¬ DrawsPhrase spelling payload phrase)
    (e₁ e₂ : Bytes) :
    run e₁ [spelling, payload] phrase = run e₂ [spelling, payload] phrase := by
  by_cases hfresh : spelling = "M1" ∨ phrase.getD "" = ""
  · rw [run_of_fresh hfresh, run_of_fresh hfresh]
    refine callOn_congr (fun p _ hmethod hparams hblank => ?_) e₁ e₂
    exact h (.call hfresh hmethod hparams hblank)
  · obtain ⟨hspelling, hphrase⟩ := not_or.mp hfresh
    have hmake := Wallet.make_congr (fun hblank => h (.before hspelling hphrase hblank)) e₁ e₂
      .standard
    obtain ⟨hstart₁, hfail₁⟩ := run_of_phrase hspelling hphrase e₁ payload
    obtain ⟨hstart₂, hfail₂⟩ := run_of_phrase hspelling hphrase e₂ payload
    cases hmade : Wallet.make e₁ (phrase.getD "") .standard with
    | error e => rw [hfail₁ e hmade, hfail₂ e (hmake ▸ hmade)]
    | ok w =>
      rw [hstart₁ w hmade, hstart₂ w (hmake ▸ hmade)]
      exact callOn_congr (fun _ hnone => absurd hnone (Option.some_ne_none w)) e₁ e₂

/-! ## The two spellings -/

theorem callOn_code (m : Method) (entropy : Bytes) (payload : String) (s : Session) :
    callOn entropy m.code payload s = callOn entropy m.name payload s := by
  rw [callOn_eq (Method.ofName?_eq_some_iff.mpr (.inl rfl)),
    callOn_eq (Method.ofName?_eq_some_iff.mpr (.inr rfl))]

/-- Only where a phrase is given to a start are the two spellings told apart. -/
theorem run_code {m : Method} (h : m = .start → phrase.getD "" = "") (entropy : Bytes)
    (payload : String) :
    run entropy [m.code, payload] phrase = run entropy [m.name, payload] phrase := by
  have hguard : (m.code ≠ "M1" ∧ phrase.getD "" ≠ "") ↔
      (m.name ≠ "M1" ∧ phrase.getD "" ≠ "") := by
    refine and_congr_left fun hphrase => ?_
    have hcode : m.code ≠ "M1" := fun hcode =>
      hphrase (h (Method.code_eq_start_iff.mp hcode))
    exact iff_of_true hcode (Method.name_ne_code m .start)
  simp only [run_two, hguard, callOn_code]

/-- Under its code a start finds no wallet. -/
theorem run_start_code (entropy : Bytes) (payload : String) :
    run entropy [Method.start.code, payload] phrase =
      ⟨(Session.run entropy .start payload none).1.isSuccess,
        (Session.run entropy .start payload none).1.pretty ++ "\n", ""⟩ := by
  have hcode : Method.start.code = "M1" ∨ phrase.getD "" = "" := .inl rfl
  rw [run_of_fresh hcode, callOn_eq (Method.ofName?_eq_some_iff.mpr (.inl rfl))]

/-- Where the phrase that is given makes a wallet, the name starts a session that has one. -/
theorem sameAnswer_start_iff {w : Wallet} {entropy : Bytes} (hphrase : phrase.getD "" ≠ "")
    (hmake : Wallet.make entropy (phrase.getD "") .standard = .ok w) (payload : String) :
    SameAnswer (run entropy [Method.start.code, payload] phrase)
        (run entropy [Method.start.name, payload] phrase) ↔
      ∀ p, CallParams.parse payload = .ok p →
        ∃ v, Wallet.make entropy p.param1 .standard = .ok v := by
  obtain ⟨hwallet, -⟩ := run_of_phrase (Method.name_ne_code .start .start) hphrase entropy payload
  rw [run_start_code, hwallet w hmake, callOn_eq (Method.ofName?_eq_some_iff.mpr (.inr rfl)),
    sameAnswer_answer_iff, Session.run_start_eq_iff]

/-- Where it makes none, the name prints nothing. -/
theorem not_sameAnswer_start {entropy : Bytes} {e : WalletError} (hphrase : phrase.getD "" ≠ "")
    (hmake : Wallet.make entropy (phrase.getD "") .standard = .error e) (payload : String) :
    ¬ SameAnswer (run entropy [Method.start.code, payload] phrase)
        (run entropy [Method.start.name, payload] phrase) := by
  obtain ⟨-, hfail⟩ := run_of_phrase (Method.name_ne_code .start .start) hphrase entropy payload
  rw [run_start_code, hfail e hmake]
  rintro ⟨houtput, -⟩
  have hlength := congrArg String.length houtput
  rw [String.length_append] at hlength
  exact absurd hlength (Nat.succ_ne_zero _)

/-- **When the two spellings of a method are answered alike**, in runs that make no phrase. For all
methods but the start they always are, and for the start without a phrase. A start with a phrase is
another matter: under its name, but not under its code, the phrase is tried first. The answers are
the same exactly when that makes a wallet and so does the phrase among the parameters, if they can
be read. -/
theorem sameAnswer_iff {m : Method} {payload : String}
    (hcode : ¬ DrawsPhrase m.code payload phrase) (hname : ¬ DrawsPhrase m.name payload phrase)
    (e₁ e₂ : Bytes) :
    SameAnswer (run e₁ [m.code, payload] phrase) (run e₂ [m.name, payload] phrase) ↔
      (m = .start → phrase.getD "" ≠ "" → Wallet.GrowsFrom (phrase.getD "") ∧
        ∀ p, CallParams.parse payload = .ok p → Wallet.GrowsFrom p.param1) := by
  rw [run_congr hname e₂ e₁]
  by_cases hstart : m = .start → phrase.getD "" = ""
  · rw [run_code hstart]
    exact iff_of_true ⟨rfl, rfl⟩ fun hm hphrase => absurd (hstart hm) hphrase
  -- A start with a phrase. No phrase is made, so neither phrase is blank and the entropy has no
  -- part in what they make.
  · obtain ⟨rfl, hphrase⟩ := Classical.not_imp.mp hstart
    have hgiven : ¬ Wallet.IsBlank (phrase.getD "") := fun hblank =>
      hname (.before (Method.name_ne_code .start .start) hphrase hblank)
    have hparam : ∀ p, CallParams.parse payload = .ok p → ¬ Wallet.IsBlank p.param1 :=
      fun p hparams hblank => hcode (.call (.inl rfl) rfl hparams hblank)
    simp only [forall_const, hphrase, ne_eq, not_false_eq_true]
    rw [Wallet.growsFrom_iff hgiven e₁]
    cases hmake : Wallet.make e₁ (phrase.getD "") .standard with
    | error e =>
      refine iff_of_false (not_sameAnswer_start hphrase hmake payload) ?_
      rintro ⟨⟨w, hw⟩, -⟩
      cases hw
    | ok w =>
      rw [sameAnswer_start_iff hphrase hmake]
      have hgrows : ∀ p, CallParams.parse payload = .ok p →
          (Wallet.GrowsFrom p.param1 ↔ ∃ v, Wallet.make e₁ p.param1 .standard = .ok v) :=
        fun p hparams => Wallet.growsFrom_iff (hparam p hparams) e₁
      constructor
      · exact fun h => ⟨⟨w, rfl⟩, fun p hparams => (hgrows p hparams).mpr (h p hparams)⟩
      · exact fun h p hparams => (hgrows p hparams).mp (h.2 p hparams)

end CommandLine

end

namespace CommandLine

/-- With words in the environment that make no wallet, a start with the sample phrase is answered
differently under its code and under its name. -/
theorem sameAnswer_iff_badWords :
    ¬ DrawsPhrase Method.start.code Session.samplePayload (some "bad words") ∧
      ¬ DrawsPhrase Method.start.name Session.samplePayload (some "bad words") ∧
      ¬ SameAnswer
        (@run Wallet.sampleSuite [] [Method.start.code, Session.samplePayload] (some "bad words"))
        (@run Wallet.sampleSuite [] [Method.start.name, Session.samplePayload]
          (some "bad words")) := by
  have hblank : ¬ Wallet.IsBlank "bad words" := by decide +kernel
  have hparams : CallParams.parse Session.samplePayload =
      .ok ⟨"  " ++ Wallet.samplePhrase ++ " ", "", "", ""⟩ := by decide +kernel
  have hparam : ¬ Wallet.IsBlank ("  " ++ Wallet.samplePhrase ++ " ") := by decide +kernel
  have hparse : Mnemonic.parse (Text.trim "bad words") = .error (.wordCount 2) := by decide +kernel
  have hcode : ¬ DrawsPhrase Method.start.code Session.samplePayload (some "bad words") := by
    rintro (⟨hspelling, -, -⟩ | ⟨-, -, hread, hempty⟩)
    · exact hspelling rfl
    · obtain rfl := Except.ok.inj (hparams.symm.trans hread)
      exact hparam hempty
  have hname : ¬ DrawsPhrase Method.start.name Session.samplePayload (some "bad words") := by
    rintro (⟨-, -, hempty⟩ | ⟨hfresh | hphrase, -, -, -⟩)
    · exact hblank hempty
    · exact absurd hfresh (by decide)
    · exact absurd hphrase (by decide)
  refine ⟨hcode, hname, fun hsame => ?_⟩
  obtain ⟨hgrows, -⟩ :=
    (@sameAnswer_iff Wallet.sampleSuite _ _ _ hcode hname [] []).mp hsame rfl (by decide)
  exact @Wallet.not_growsFrom_of_parse Wallet.sampleSuite _ _ hparse hgrows

end CommandLine

end CashWallet
