import CashWallet.Chain.Block
import CashWallet.Peer.Handshake

/-!
# `CashWallet/Peer/Message.lean` — what nodes say to each other

A message is known by its command, and its payload is read by that command. A command that is not
known keeps its payload as it is, so that it can be passed over. **A payload is read to its last
byte**; whatever is left over makes it no message, and the failure tells how many bytes there were
and how many were read.

Two messages have no payload worth reading: the answer to an introduction has none at all, and that
of an unknown command has no meaning here. A command counts as known only by its full name in lower
case, so that an unknown one may well begin like one of these.

Blocks and transactions are read with the label of the main network for the addresses in them, since
no other network is spoken to.
-/

set_option autoImplicit false

namespace CashWallet

inductive Message
  | version (h : Handshake)
  | verAck
  | ping (nonce : UInt64)
  | pong (nonce : UInt64)
  | getBlocks (l : BlockLocator)
  | getHeaders (l : BlockLocator)
  | headers (hs : List BlockHeader)
  | block (b : Block)
  | tx (t : Tx)
  | unknown (command : String) (payload : Bytes)
  deriving DecidableEq

namespace Message

def command : Message → String
  | version _ => "version"
  | verAck => "verack"
  | ping _ => "ping"
  | pong _ => "pong"
  | getBlocks _ => "getblocks"
  | getHeaders _ => "getheaders"
  | headers _ => "headers"
  | block _ => "block"
  | tx _ => "tx"
  | unknown command _ => command

def payload : Message → Bytes
  | version h => h.encode
  | verAck => []
  | ping nonce => Bytes.ofNatLE 8 nonce.toNat
  | pong nonce => Bytes.ofNatLE 8 nonce.toNat
  | getBlocks l => l.encode
  | getHeaders l => l.encode
  | headers hs => BlockHeader.encodeRow hs
  | block b => b.encode
  | tx t => t.encode
  | unknown _ payload => payload

/-- How the payload of a command is read; nothing for a command that is not known. -/
def reader? (command : String) : Option (Reader DecodeError Message) :=
  if command = "version" then some (do return version (← Handshake.read.fields))
  else if command = "verack" then some (return verAck)
  else if command = "ping" then some (do return ping (← Reader.uint64.fields))
  else if command = "pong" then some (do return pong (← Reader.uint64.fields))
  else if command = "getblocks" then some (do return getBlocks (← BlockLocator.read))
  else if command = "getheaders" then some (do return getHeaders (← BlockLocator.read))
  else if command = "headers" then some (do return headers (← BlockHeader.readRow))
  else if command = "block" then some (do return block (← Block.read mainLabel))
  else if command = "tx" then some (do return tx (← Tx.read mainLabel))
  else none

def decode (command : String) (payload : Bytes) : Except DecodeError Message :=
  match reader? command with
  | none => .ok (unknown command payload)
  | some r =>
    match r payload with
    | (.error e, _) => .error e
    | (.ok m, rest) =>
      if rest.isEmpty then .ok m
      else .error (.lengthMismatch payload.length (payload.length - rest.length))

end Message

end CashWallet
