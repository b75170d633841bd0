import CashWallet.Proofs.Peer.Delimited
import CashWallet.Proofs.Peer.Stream
import CashWallet.Proofs.Text.Lossy
import CashWallet.Proofs.Transaction.Normal

/-!
# `CashWallet/Proofs/Peer/Reframing.lean` — passing on what was received

A message that was read from a frame can be put in a frame again, and the new frame is read as the
same command and the same payload, **if the command fits** (`Frame.ofMessage_of_decode`). The new
frame need not be the old one. Counts and lengths are written in their shortest form, texts without
what could not be read, and a transaction is named anew; the bytes of the payload stay the same from
there on.

The name is what keeps the message itself from coming back. A transaction that was read has the name
of the bytes that it was read from, which need not be the bytes that it is written in. So the
message is compared after its transactions are named anew (`Message.renamed`), which changes neither
its command nor its payload, and in that form it is one that a reader gives back
(`Message.isWellFormed_of_reader?`).

A command does not always fit. It is sent in twelve bytes, but a byte that cannot be read as text is
read as a character that takes three, so the text of a command can be too long for the field that it
came in. This happens only to commands that are not known, and never to one that was sent as the
bytes of some text. The last section has the commands at which it begins to happen.
-/

set_option autoImplicit false

namespace CashWallet

open Reader

/-! ## What a reader puts beside the parts -/

namespace Block

def renamed (b : Block) : Block :=
  ⟨b.header, b.transactions.map Tx.renamed⟩

theorem encode_renamed (b : Block) : b.renamed.encode = b.encode := by
  have hrow : (b.transactions.map Tx.renamed).flatMap Tx.encode =
      b.transactions.flatMap Tx.encode := by
    rw [List.flatMap_map]
    rfl
  rw [encode, encode, renamed, List.length_map, hrow]

/-- A block that was read is as a reader leaves it, once its transactions are named anew. -/
theorem isConsistent_renamed {label : String} {b rest : Bytes} {block : Block}
    (h : read label b = (.ok block, rest)) : block.renamed.IsConsistent label := by
  obtain ⟨header, b₁, -, h⟩ := bind_eq_ok h
  obtain ⟨count, b₂, -, h⟩ := bind_eq_ok h
  obtain ⟨available, b₃, -, h⟩ := bind_eq_ok h
  by_cases hguard : available / leastTransaction < count.toNat
  · rw [if_pos hguard] at h
    cases h
  · rw [if_neg hguard] at h
    obtain ⟨transactions, htransactions, rfl⟩ := bind_pure_eq_ok h
    intro t ht
    obtain ⟨t, hmem, rfl⟩ := List.mem_map.mp ht
    exact forall_of_times (P := fun t => t.renamed.IsConsistent label) Tx.isConsistent_renamed
      htransactions t hmem

end Block

/-- A user agent that was read does not end in the zeros that are taken for padding. -/
theorem Handshake.getLast?_userAgent {b rest : Bytes} {h : Handshake}
    (hread : read b = (.ok h, rest)) : h.userAgent.toList.getLast? ≠ some '\x00' := by
  obtain ⟨version, b₁, -, hread⟩ := bind_eq_ok hread
  obtain ⟨services, b₂, -, hread⟩ := bind_eq_ok hread
  obtain ⟨timestamp, b₃, -, hread⟩ := bind_eq_ok hread
  obtain ⟨receiver, b₄, -, hread⟩ := bind_eq_ok hread
  obtain ⟨sender, b₅, -, hread⟩ := bind_eq_ok hread
  obtain ⟨nonce, b₆, -, hread⟩ := bind_eq_ok hread
  obtain ⟨userAgent, b₇, htext, hread⟩ := bind_eq_ok hread
  obtain ⟨startHeight, b₈, -, hread⟩ := bind_eq_ok hread
  obtain ⟨relay, -, rfl⟩ := bind_pure_eq_ok hread
  obtain ⟨bytes, -, rfl⟩ := bind_pure_eq_ok htext
  exact getLast?_paddedText bytes

/-! ## Messages -/

namespace Message

/-- The message with its transactions named anew. -/
def renamed : Message → Message
  | block b => block b.renamed
  | tx t => tx t.renamed
  | m => m

theorem command_renamed (m : Message) : m.renamed.command = m.command := by
  cases m with
  | _ => rfl

theorem payload_renamed (m : Message) : m.renamed.payload = m.payload := by
  cases m with
  | block b => exact b.encode_renamed
  | tx t => exact t.encode_renamed
  | _ => rfl

theorem reader?_eq_none_iff {command : String} : reader? command = none ↔ command ∉ known := by
  refine ⟨fun hnone hmem => ?_, reader?_eq_none⟩
  have hknown : ∀ command ∈ known, (reader? command).isSome = true := by
    decide
  have hsome := hknown command hmem
  rw [hnone] at hsome
  cases hsome

/-- **What the reader of a command reads is a message of the command**, and comes back from its
payload once its transactions are named anew. -/
theorem isWellFormed_of_reader? {command : String} {r : Reader DecodeError Message} {b rest : Bytes}
    {m : Message} (hr : reader? command = some r) (h : r b = (.ok m, rest)) :
    m.command = command ∧ m.renamed.IsWellFormed := by
  have hmem : command ∈ known := by
    by_contra hnot
    rw [reader?_eq_none hnot] at hr
    cases hr
  -- One case a command, in the order of `known`: what its reader reads is what the message needs.
  simp only [known, List.mem_cons, List.not_mem_nil, or_false] at hmem
  obtain rfl | rfl | rfl | rfl | rfl | rfl | rfl | rfl | rfl := hmem
  · cases hr
    obtain ⟨v, hv, rfl⟩ := bind_pure_eq_ok h
    exact ⟨rfl, Handshake.getLast?_userAgent (fields_eq_ok hv)⟩
  · cases hr
    cases h
    exact ⟨rfl, trivial⟩
  · cases hr
    obtain ⟨nonce, -, rfl⟩ := bind_pure_eq_ok h
    exact ⟨rfl, trivial⟩
  · cases hr
    obtain ⟨nonce, -, rfl⟩ := bind_pure_eq_ok h
    exact ⟨rfl, trivial⟩
  · cases hr
    obtain ⟨l, -, rfl⟩ := bind_pure_eq_ok h
    exact ⟨rfl, trivial⟩
  · cases hr
    obtain ⟨l, -, rfl⟩ := bind_pure_eq_ok h
    exact ⟨rfl, trivial⟩
  · cases hr
    obtain ⟨hs, -, rfl⟩ := bind_pure_eq_ok h
    exact ⟨rfl, trivial⟩
  · cases hr
    obtain ⟨block, hblock, rfl⟩ := bind_pure_eq_ok h
    exact ⟨rfl, Block.isConsistent_renamed hblock⟩
  · cases hr
    obtain ⟨t, ht, rfl⟩ := bind_pure_eq_ok h
    exact ⟨rfl, Tx.isConsistent_renamed ht⟩

/-- A message that was read is of a known command and as a reader leaves it, or its command is not
known and its payload was kept. -/
theorem decode_eq_ok {command : String} {payload : Bytes} {m : Message}
    (h : decode command payload = .ok m) :
    m.command = command ∧
      (m.renamed.IsWellFormed ∨ command ∉ known ∧ m = unknown command payload) := by
  unfold decode at h
  cases hr : reader? command with
  | none =>
    rw [hr] at h
    cases h
    exact ⟨rfl, .inr ⟨reader?_eq_none_iff.mp hr, rfl⟩⟩
  | some r =>
    rw [hr] at h
    cases hread : r payload with
    | mk o rest =>
      simp only [hread] at h
      cases o with
      | error e => cases h
      | ok m' =>
        obtain ⟨hcommand, hform⟩ := isWellFormed_of_reader? hr hread
        cases rest with
        | nil =>
          cases h
          exact ⟨hcommand, .inl hform⟩
        | cons c rest => cases h

end Message

/-! ## Frames -/

namespace Frame

/-- The bytes of the command in a frame, up to the first zero. -/
def sentCommand (b : Bytes) : Bytes :=
  ((b.drop magic.length).take commandSize).takeWhile (· != 0)

theorem length_sentCommand_le (b : Bytes) : (sentCommand b).length ≤ commandSize :=
  Nat.le_trans (List.takeWhile_prefix _).length_le (List.length_take_le _ _)

theorem zero_notMem_commandText (b : Bytes) : '\x00' ∉ (commandText b).toList := by
  refine Text.zero_notMem_ofUtf8Lossy fun hzero => ?_
  have hne := List.mem_takeWhile_imp hzero
  cases hne

/-- The last part of a frame: a payload with the checksum, which is a message of the command. -/
theorem payload_eq_ok {command expected b rest : Bytes} {length : Nat} {m : Message}
    (hread : (do
      let payload ← (Reader.take length).fields
      if checksum payload ≠ expected then Reader.fail (.badChecksum expected (checksum payload))
      else
        match Message.decode (commandText command) payload with
        | .ok m => return m
        | .error e => Reader.fail e) b = (.ok m, rest)) :
    ∃ payload, b = payload ++ rest ∧ payload.length = length ∧ checksum payload = expected ∧
      Message.decode (commandText command) payload = .ok m := by
  obtain ⟨payload, b₁, hpayload, h⟩ := bind_eq_ok hread
  obtain ⟨hb, hlength⟩ := take_eq_ok (fields_eq_ok hpayload)
  by_cases hchecksum : checksum payload = expected
  · rw [if_neg (not_not_intro hchecksum)] at h
    cases hdecode : Message.decode (commandText command) payload with
    | error e =>
      rw [hdecode] at h
      cases h
    | ok m' =>
      rw [hdecode] at h
      cases h
      exact ⟨payload, hb, hlength, hchecksum, hdecode⟩
  · rw [if_pos hchecksum] at h
    cases h

/-- **What is read was sent in a frame**: the bytes are a frame with twelve bytes of a command and
with a payload that is a message of that command. -/
theorem read_eq_ok {b rest : Bytes} {m : Message} (hread : read b = (.ok m, rest)) :
    ∃ sent payload, b = magic ++ (sent ++ (Bytes.ofNatLE 4 payload.length ++
        (checksum payload ++ (payload ++ rest)))) ∧ sent.length = commandSize ∧
      payload.length < UInt32.size ∧ Message.decode (commandText sent) payload = .ok m := by
  -- The parts of a frame in order. The two questions in between, for the mark and for the length,
  -- have been answered well.
  obtain ⟨mark, b₁, hmark, h⟩ := bind_eq_ok hread
  obtain ⟨hb, -⟩ := take_eq_ok (fields_eq_ok hmark)
  by_cases hmagic : mark = magic
  swap
  · rw [if_pos hmagic] at h
    cases h
  rw [if_neg (not_not_intro hmagic)] at h
  obtain ⟨sent, b₂, hsent, h⟩ := bind_eq_ok h
  obtain ⟨hb₁, hsize⟩ := take_eq_ok (fields_eq_ok hsent)
  obtain ⟨length, b₃, hlength, h⟩ := bind_eq_ok h
  obtain ⟨hb₂, hlt⟩ := natLE_eq_ok (fields_eq_ok hlength)
  obtain ⟨expected, b₄, hexpected, h⟩ := bind_eq_ok h
  obtain ⟨hb₃, -⟩ := take_eq_ok (fields_eq_ok hexpected)
  obtain ⟨available, b₅, hleft, h⟩ := bind_eq_ok h
  cases hleft
  by_cases hroom : b₄.length < length
  · rw [if_pos hroom] at h
    cases h
  rw [if_neg hroom] at h
  obtain ⟨payload, hb₄, rfl, rfl, hdecode⟩ := payload_eq_ok h
  refine ⟨sent, payload, ?_, hsize, hlt, hdecode⟩
  rw [hb, hb₁, hb₂, hb₃, hb₄, hmagic]

/-- A frame with a command that is not known is read for its payload, as it is. -/
theorem decode_unknown {sent payload : Bytes} (hsize : sent.length = commandSize)
    (hlen : payload.length < UInt32.size) (hunknown : commandText sent ∉ Message.known) :
    decode (magic ++ (sent ++ (Bytes.ofNatLE 4 payload.length ++ (checksum payload ++ payload)))) =
      .ok (.unknown (commandText sent) payload, headerSize + payload.length) := by
  have hdecode : Message.decode (commandText sent) payload =
      .ok (.unknown (commandText sent) payload) := by
    rw [Message.decode, Message.reader?_eq_none hunknown]
  have hread := (reads_sent hsize hlen hdecode).measure_append []
  have hlength : (magic ++ (sent ++ (Bytes.ofNatLE 4 payload.length ++
      (checksum payload ++ payload)))).length = headerSize + payload.length := by
    simp [magic, hsize, checksum, headerSize]
    omega
  rwa [List.append_nil, hlength] at hread

theorem sentCommand_eq {sent : Bytes} (hsize : sent.length = commandSize) (rest : Bytes) :
    sentCommand (magic ++ (sent ++ rest)) = sent.takeWhile (· != 0) := by
  rw [sentCommand, List.drop_left, ← hsize, List.take_left]

/-- A command that was sent as the bytes of a text is that text, and fits again. -/
theorem fits_of_sentCommand_eq {b : Bytes} {s : String} (h : sentCommand b = Text.utf8 s) :
    (Text.utf8 (Text.ofUtf8Lossy (sentCommand b))).length ≤ commandSize := by
  rw [h, Text.ofUtf8Lossy_utf8, ← h]
  exact length_sentCommand_le b

/-- **A message that was received can be sent on when its command fits.** Let a message be read from
the front of a string, and let its payload be short enough for a frame. Its command is the text of
the bytes that were sent for it. If the command fits into twelve bytes, the message has a frame;
from the whole of it a message is read with the same command and the same payload. If not, it has
none; then the command is not known, and it was not sent as the bytes of any text. -/
theorem ofMessage_of_decode {b : Bytes} {m : Message} {used : Nat} (h : decode b = .ok (m, used))
    (hlen : m.payload.length < UInt32.size) :
    m.command = Text.ofUtf8Lossy (sentCommand b) ∧
      ((Text.utf8 m.command).length ≤ commandSize →
        ∃ frame m', ofMessage m = .ok frame ∧ decode frame = .ok (m', frame.length) ∧
          m'.command = m.command ∧ m'.payload = m.payload) ∧
      (commandSize < (Text.utf8 m.command).length →
        ofMessage m = .error (.commandTooLong m.command) ∧ m.command ∉ Message.known ∧
          ∀ s, sentCommand b ≠ Text.utf8 s) := by
  obtain ⟨rest, hread, -⟩ := measure_eq_ok_iff.mp h
  obtain ⟨sent, payload, hb, hsize, -, hdecode⟩ := read_eq_ok hread
  obtain ⟨hcommand, hform⟩ := Message.decode_eq_ok hdecode
  have hsent : m.command = Text.ofUtf8Lossy (sentCommand b) := by
    rw [hcommand, commandText, hb, sentCommand_eq hsize]
  refine ⟨hsent, fun hfits => ?_, fun hlong => ?_⟩
  · have hwell : m.renamed.IsWellFormed := by
      obtain hform | ⟨hunknown, rfl⟩ := hform
      · exact hform
      · exact ⟨hfits, zero_notMem_commandText sent, hunknown⟩
    have hframe := ofMessage_eq_ok hwell
    have hback := decode_append hwell (by rwa [Message.payload_renamed]) hframe []
    rw [List.append_nil] at hback
    refine ⟨_, m.renamed, ?_, hback, m.command_renamed, m.payload_renamed⟩
    rw [← hframe, ofMessage, ofMessage, m.command_renamed, m.payload_renamed]
  · refine ⟨?_, fun hmem => ?_, fun s hs => ?_⟩
    · rw [ofMessage, encode, if_pos hlong]
    · exact absurd (known_fits m.command hmem).1 (Nat.not_le_of_lt hlong)
    · rw [hsent] at hlong
      exact absurd (fits_of_sentCommand_eq hs) (Nat.not_le_of_lt hlong)

/-! ### Commands that are not text -/

/-- A command of bytes that no text has, with its padding. -/
def illegible (n : Nat) : Bytes :=
  List.replicate n 0xff ++ List.replicate (commandSize - n) 0

/-- What it is read as. -/
def illegibleText (n : Nat) : String :=
  String.ofList (List.replicate n Text.replacement)

/-- A frame with such a command and without a payload. -/
def illegibleFrame (n : Nat) : Bytes :=
  magic ++ (illegible n ++ (Bytes.ofNatLE 4 0 ++ (checksum [] ++ [])))

theorem commandText_illegible (n : Nat) : commandText (illegible n) = illegibleText n := by
  have hne : ∀ b ∈ List.replicate n (0xff : UInt8), (b != 0) = true := by
    intro b hb
    rw [List.eq_of_mem_replicate hb]
    rfl
  have hpadding : (List.replicate (commandSize - n) (0 : UInt8)).takeWhile (· != 0) = [] := by
    cases commandSize - n with
    | zero => rfl
    | succ more => rfl
  rw [commandText, illegible, List.takeWhile_append_of_pos hne, hpadding, List.append_nil,
    Text.ofUtf8Lossy, Text.decodeFrom_replicate rfl, illegibleText]

theorem illegibleText_notMem_known (n : Nat) : illegibleText (n + 1) ∉ Message.known := by
  have hlegible : ∀ command ∈ Message.known, Text.replacement ∉ command.toList := by
    decide
  intro hmem
  refine hlegible _ hmem ?_
  rw [illegibleText, String.toList_ofList]
  exact List.mem_cons_self

theorem decode_illegible {n : Nat} (h : n + 1 ≤ commandSize) :
    decode (illegibleFrame (n + 1)) = .ok (.unknown (illegibleText (n + 1)) [], headerSize) := by
  have hsize : (illegible (n + 1)).length = commandSize := by
    rw [illegible, List.length_append, List.length_replicate, List.length_replicate]
    omega
  have hdecode := @decode_unknown (illegible (n + 1)) [] hsize (by decide)
  rw [commandText_illegible] at hdecode
  exact hdecode (illegibleText_notMem_known n)

/-- Four bytes that no text has are read as a text of twelve and can be sent on; five are read as a
text of fifteen, which does not fit. -/
theorem ofMessage_of_decode_illegible :
    (decode (illegibleFrame 4) = .ok (.unknown (illegibleText 4) [], headerSize) ∧
      ∃ frame m', ofMessage (.unknown (illegibleText 4) []) = .ok frame ∧
        decode frame = .ok (m', frame.length) ∧ m'.command = illegibleText 4 ∧ m'.payload = []) ∧
    (decode (illegibleFrame 5) = .ok (.unknown (illegibleText 5) [], headerSize) ∧
      ofMessage (.unknown (illegibleText 5) []) = .error (.commandTooLong (illegibleText 5))) := by
  have hfour := decode_illegible (n := 3) (by decide)
  have hfive := decode_illegible (n := 4) (by decide)
  obtain ⟨-, hsent, -⟩ := ofMessage_of_decode hfour (by decide)
  obtain ⟨-, -, hnone⟩ := ofMessage_of_decode hfive (by decide)
  have hfits : (Text.utf8 (illegibleText 4)).length ≤ commandSize := by
    rw [Text.utf8, illegibleText, String.toList_ofList]
    decide
  have hlong : commandSize < (Text.utf8 (illegibleText 5)).length := by
    rw [Text.utf8, illegibleText, String.toList_ofList]
    decide
  exact ⟨⟨hfour, hsent hfits⟩, hfive, (hnone hlong).1⟩

end Frame

end CashWallet
