import CashWallet.Peer.Message
import CashWallet.Proofs.Chain.Codec

/-!
# `CashWallet/Proofs/Peer/Codec.lean` — messages are read back from their payloads

A payload is read to its last byte by the reader of its command. `Message.IsWellFormed` says what a
message must be so that this gives the message back: its transactions keep what a reader puts there,
a user agent does not end in the zeros that would be taken for padding, and a command that is not
known is really none of the known ones.

**The reader of a command is found by the command alone**, so the proof is one case a message, and
each case is the law of one codec (`Message.decode_payload`).

The laws of the codecs say what is read in front of anything whatsoever (`Reader.Reads`). A payload
is the case in which nothing follows, and there is one place where that matters: the last field of
an introduction may be missing, and it is missing when nothing follows. It is always written, so a
written introduction is read whatever comes behind it (`Handshake.reads`).
-/

set_option autoImplicit false

namespace CashWallet

open Reader

/-! ## Introductions -/

theorem NetAddress.reads (a : NetAddress) : Reads read a.encode a := by
  rw [encode, List.append_assoc, read]
  refine (Reads.uint64 a.services).bind ?_
  refine (Reads.fixed a.ip).bind ?_
  exact (Reads.uint16BE a.port).bind_pure fun port => NetAddress.mk a.services a.ip port

namespace Handshake

theorem reads_relay (relay : Bool) : Reads readRelay [if relay then 1 else 0] relay := by
  have hback : ((if relay then 1 else 0 : UInt8) != 0) = relay := by
    cases relay <;> rfl
  have hbyte := (Reads.byte (if relay then 1 else 0)).bind_pure (· != 0)
  rw [hback] at hbyte
  -- The byte itself is what keeps the reader from taking the field for missing.
  refine Reads.remaining fun left hle => ?_
  have hleft : left ≠ 0 := Nat.one_le_iff_ne_zero.mp hle
  rw [if_neg hleft]
  exact hbyte

/-- An introduction is read from its bytes when its user agent does not end in a zero. -/
theorem reads {h : Handshake} (hend : h.userAgent.toList.getLast? ≠ some '\x00')
    (hlen : h.encode.length < UInt64.size) : Reads read h.encode h := by
  have hbytes : h.encode = Bytes.ofNatLE 4 h.protocolVersion.toNat ++
      (Bytes.ofNatLE 8 h.services.toNat ++ (Bytes.ofNatLE 8 h.timestamp.toUInt64.toNat ++
        (h.receiver.encode ++ (h.sender.encode ++ (Bytes.ofNatLE 8 h.nonce.toNat ++
          (varText h.userAgent ++ (Bytes.ofNatLE 4 h.startHeight.toUInt32.toNat ++
            [if h.relay then 1 else 0]))))))) := by
    simp only [encode, List.append_assoc]
  have hagent := length_lt_length_varBytes (Text.utf8 h.userAgent)
  rw [hbytes] at hlen
  simp only [List.length_append, varText] at hlen
  rw [hbytes, read]
  refine (Reads.uint32 h.protocolVersion).bind ?_
  refine (Reads.uint64 h.services).bind ?_
  refine (Reads.int64 h.timestamp).bind ?_
  refine h.receiver.reads.bind ?_
  refine h.sender.reads.bind ?_
  refine (Reads.uint64 h.nonce).bind ?_
  refine (Reads.varText (by omega) hend).bind ?_
  refine (Reads.int32 h.startHeight).bind ?_
  exact (reads_relay h.relay).bind_pure fun relay => Handshake.mk h.protocolVersion h.services
    h.timestamp h.receiver h.sender h.nonce h.userAgent h.startHeight relay

end Handshake

/-! ## Messages -/

namespace Message

/-- The commands whose payloads are read. -/
def known : List String :=
  ["version", "verack", "ping", "pong", "getblocks", "getheaders", "headers", "block", "tx"]

/-- What a message must be to come back from its frame. -/
def IsWellFormed : Message → Prop
  | version h => h.userAgent.toList.getLast? ≠ some '\x00'
  | block b => b.IsConsistent mainLabel
  | tx t => t.IsConsistent mainLabel
  | unknown command _ =>
    (Text.utf8 command).length ≤ 12 ∧ '\x00' ∉ command.toList ∧ command ∉ known
  | _ => True

/-- A payload that the reader of its command takes whole is the message that it reads. -/
theorem decode_of_reads {command : String} {payload : Bytes} {m : Message}
    {r : Reader DecodeError Message} (hr : reader? command = some r) (h : Reads r payload m) :
    decode command payload = .ok m := by
  have hread := h []
  rw [List.append_nil] at hread
  simp only [decode, hr, hread, List.isEmpty_nil, if_true]

theorem reader?_eq_none {command : String} (h : command ∉ known) : reader? command = none := by
  simp only [known, List.mem_cons, List.not_mem_nil, or_false, not_or] at h
  obtain ⟨h1, h2, h3, h4, h5, h6, h7, h8, h9⟩ := h
  rw [reader?, if_neg h1, if_neg h2, if_neg h3, if_neg h4, if_neg h5, if_neg h6, if_neg h7,
    if_neg h8, if_neg h9]

/-- **A message comes back from its command and its payload.** -/
theorem decode_payload {m : Message} (h : m.IsWellFormed)
    (hlen : m.payload.length < UInt64.size) : decode m.command m.payload = .ok m := by
  cases m with
  | version v =>
    exact decode_of_reads (if_pos rfl) ((Handshake.reads h hlen).fields.bind_pure version)
  | verAck => exact decode_of_reads rfl (Reads.pure verAck)
  | ping nonce => exact decode_of_reads rfl ((Reads.uint64 nonce).fields.bind_pure ping)
  | pong nonce => exact decode_of_reads rfl ((Reads.uint64 nonce).fields.bind_pure pong)
  | getBlocks l => exact decode_of_reads rfl ((BlockLocator.reads hlen).bind_pure getBlocks)
  | getHeaders l => exact decode_of_reads rfl ((BlockLocator.reads hlen).bind_pure getHeaders)
  | headers hs => exact decode_of_reads rfl ((BlockHeader.reads_row hlen).bind_pure headers)
  | block b => exact decode_of_reads rfl ((Block.reads h hlen).bind_pure block)
  | tx t => exact decode_of_reads rfl ((Tx.reads h (Tx.countsFit_of_length_lt hlen)).bind_pure tx)
  | unknown command payload =>
    -- Nothing is read: the payload is kept as it is.
    have hnone : reader? (command) = none := reader?_eq_none h.2.2
    simp only [Message.command, Message.payload, decode, hnone]

end Message

end CashWallet
