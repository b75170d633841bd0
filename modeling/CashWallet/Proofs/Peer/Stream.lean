import CashWallet.Peer.Frame
import CashWallet.Proofs.Peer.Codec

/-!
# `CashWallet/Proofs/Peer/Stream.lean` — a stream of frames is read back

Whoever listens to a peer has a growing string of bytes and cuts a frame off its front as often as
there is one. Nothing marks where a frame ends but the length in it, so what makes a stream readable
is that **reading a frame takes exactly the frame** (`Frame.reads`): not a byte of what stands
behind it is looked at. From there the stream is an induction along its messages
(`Frame.decodeTimes_frames`).

What a frame needs of its message comes in two parts. The payload is read back by the reader of its
command, which is the law of the codecs, and the command is read back from its twelve bytes, which
is shown here: it has no zeros, so that it ends where the padding begins
(`Frame.commandText_padded`), and it fits (`Frame.command_fits`). The commands that are known fit
because there are nine of them; one that is not known fits because a well-formed message says so.

What is left behind the last frame may be anything, the beginning of another frame included.
-/

set_option autoImplicit false

namespace CashWallet.Frame

open Reader

/-! ## The command in its twelve bytes -/

/-- A command without zeros is what stands before the padding. -/
theorem commandText_padded {command : String} (h : '\x00' ∉ command.toList) (n : Nat) :
    commandText (Text.utf8 command ++ List.replicate n 0) = command := by
  have hne : ∀ b ∈ Text.utf8 command, (b != 0) = true := by
    intro b hb
    rw [bne_iff_ne]
    rintro rfl
    exact Text.zero_notMem_utf8 h hb
  have hpadding : (List.replicate n (0 : UInt8)).takeWhile (· != 0) = [] := by
    cases n with
    | zero => rfl
    | succ n => rfl
  rw [commandText, List.takeWhile_append_of_pos hne, hpadding, List.append_nil,
    Text.ofUtf8Lossy_utf8]

/-- The commands that are known fit and have no zeros. -/
theorem known_fits : ∀ command ∈ Message.known,
    (Text.utf8 command).length ≤ commandSize ∧ '\x00' ∉ command.toList := by
  decide

theorem command_fits {m : Message} (h : m.IsWellFormed) :
    (Text.utf8 m.command).length ≤ commandSize ∧ '\x00' ∉ m.command.toList := by
  cases m with
  | unknown command payload => exact ⟨h.1, h.2.1⟩
  | _ => exact known_fits _ (by simp [Message.command, Message.known])

/-! ## One frame -/

theorem ofMessage_eq_ok {m : Message} (h : m.IsWellFormed) :
    ofMessage m = .ok (header (Text.utf8 m.command) m.payload ++ m.payload) := by
  have hfits := (command_fits h).1
  simp only [ofMessage, encode]
  rw [if_neg (Nat.not_lt.mpr hfits)]

/-- A frame is read with whatever command it was sent, when its payload is a message of that
command. -/
theorem reads_sent {sent payload : Bytes} {m : Message} (hsent : sent.length = commandSize)
    (hlen : payload.length < UInt32.size)
    (hdecode : Message.decode (commandText sent) payload = .ok m) :
    Reads read (magic ++ (sent ++ (Bytes.ofNatLE 4 payload.length ++
      (checksum payload ++ payload)))) m := by
  have hchecksum : (checksum payload).length = 4 := by
    simp [checksum]
  rw [read]
  refine (Reads.take (x := magic) rfl).fields.bind ?_
  rw [if_neg (fun hne => hne rfl)]
  refine (Reads.take hsent).fields.bind ?_
  refine (Reads.natLE 4 hlen).fields.bind ?_
  refine (Reads.take hchecksum).fields.bind ?_
  refine Reads.guarded (fun available hle => Nat.not_lt.mpr hle) ?_
  refine (Reads.take rfl).fields.bind_last ?_
  rw [if_neg (fun hne => hne rfl), hdecode]
  exact Reads.pure m

/-- **Reading a frame takes exactly the frame.** -/
theorem reads {m : Message} (h : m.IsWellFormed) (hlen : m.payload.length < UInt32.size) :
    Reads read (header (Text.utf8 m.command) m.payload ++ m.payload) m := by
  obtain ⟨hfits, hzero⟩ := command_fits h
  have hback := commandText_padded hzero (commandSize - (Text.utf8 m.command).length)
  have hdecode : Message.decode m.command m.payload = .ok m :=
    Message.decode_payload h (Nat.lt_trans hlen (by decide))
  have hcommand : (Text.utf8 m.command ++
      List.replicate (commandSize - (Text.utf8 m.command).length) 0).length = commandSize := by
    rw [List.length_append, List.length_replicate]
    omega
  -- The command and its padding are read as one field of twelve bytes.
  simp only [header, List.append_assoc]
  rw [← List.append_assoc (Text.utf8 m.command)]
  refine reads_sent hcommand hlen ?_
  rw [hback]
  exact hdecode

theorem decode_append {m : Message} {frame : Bytes} (h : m.IsWellFormed)
    (hlen : m.payload.length < UInt32.size) (hframe : ofMessage m = .ok frame) (rest : Bytes) :
    decode (frame ++ rest) = .ok (m, frame.length) := by
  rw [ofMessage_eq_ok h, Except.ok.injEq] at hframe
  have hread := reads h hlen rest
  rw [hframe] at hread
  simp only [decode, Reader.measure, hread, List.length_append, Nat.add_sub_cancel]

/-! ## Streams -/

/-- The messages of `n` frames that are read one after the other, each with the number of bytes that
its frame takes, and the bytes left behind the last. -/
def decodeTimes : Nat → Bytes → Except DecodeError (List (Message × Nat) × Bytes)
  | 0, b => .ok ([], b)
  | n + 1, b =>
    match decode b with
    | .error e => .error e
    | .ok (m, used) =>
      match decodeTimes n (b.drop used) with
      | .error e => .error e
      | .ok (messages, rest) => .ok ((m, used) :: messages, rest)

/-- **One step**: in front of a string from which `n` frames are read, one more frame makes it
`n + 1`. -/
theorem decodeTimes_succ {m : Message} {frame : Bytes} (h : m.IsWellFormed)
    (hlen : m.payload.length < UInt32.size) (hframe : ofMessage m = .ok frame) {n : Nat}
    {b rest : Bytes} {messages : List (Message × Nat)}
    (hn : decodeTimes n b = .ok (messages, rest)) :
    decodeTimes (n + 1) (frame ++ b) = .ok ((m, frame.length) :: messages, rest) := by
  simp only [decodeTimes, decode_append h hlen hframe, List.drop_left, hn]

/-- **Frames written one behind the other are read back.** Messages that are well-formed, with
payloads whose length fits a frame, have frames; whatever stands behind the frames, reading as many
frames as there are messages yields the messages in order, each with the length of its frame, and
leaves exactly what stood behind. -/
theorem decodeTimes_frames (messages : List Message) (tail : Bytes)
    (h : ∀ m ∈ messages, m.IsWellFormed ∧ m.payload.length < UInt32.size) :
    ∃ frames, messages.mapM ofMessage = .ok frames ∧
      decodeTimes messages.length (frames.flatten ++ tail) =
        .ok (messages.zip (frames.map List.length), tail) := by
  -- The tail of the first frame is the rest of the stream.
  induction messages with
  | nil => exact ⟨[], rfl, rfl⟩
  | cons m messages ih =>
    obtain ⟨hm, hlen⟩ := h m List.mem_cons_self
    obtain ⟨frames, hframes, hread⟩ := ih fun m' hm' => h m' (List.mem_cons_of_mem m hm')
    have hframe := ofMessage_eq_ok hm
    refine ⟨(header (Text.utf8 m.command) m.payload ++ m.payload) :: frames, ?_, ?_⟩
    · rw [List.mapM_cons, hframe, hframes]
      rfl
    · rw [List.flatten_cons, List.append_assoc]
      exact decodeTimes_succ hm hlen hframe hread

theorem decodeTimes_frames_three :
    ∃ frames, [Message.ping 7, .tx Tx.empty, .unknown "sendcmpct" [1]].mapM ofMessage = .ok frames ∧
      decodeTimes 3 (frames.flatten ++ magic) =
        .ok ([Message.ping 7, .tx Tx.empty, .unknown "sendcmpct" [1]].zip
          (frames.map List.length), magic) := by
  refine decodeTimes_frames [Message.ping 7, .tx Tx.empty, .unknown "sendcmpct" [1]] magic ?_
  simp only [List.forall_mem_cons, List.not_mem_nil, false_implies, implies_true, and_true]
  refine ⟨⟨trivial, by decide⟩, ⟨⟨rfl, rfl, ?_, ?_⟩, by decide⟩, ⟨by decide, by decide, by decide⟩,
    by decide⟩
  · intro i hi
    cases hi
  · intro o ho
    cases ho

end CashWallet.Frame
