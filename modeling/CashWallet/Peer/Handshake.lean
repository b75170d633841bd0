import CashWallet.Chain.Block

/-!
# `CashWallet/Peer/Handshake.lean` — how nodes introduce themselves

The first message between two nodes tells who they are and what they can do. Its last field, whether
transactions are to be passed on, came late: **where it is missing it counts as set**. Where it is
there any byte but zero sets it, and it is written as one. So an introduction that came without its
last field, or with a larger byte in it, is not written again as it came.

The other node and the node itself are described alike, by what they offer, an address and a port. A
node that speaks first leaves both descriptions empty: the connection says where it is.
-/

set_option autoImplicit false

namespace CashWallet

/-- A node on the network. The port is the one number that is written most significant byte
first. -/
structure NetAddress where
  services : UInt64
  ip : FixedBytes 16
  port : UInt16
  deriving DecidableEq

namespace NetAddress

def unspecified : NetAddress :=
  ⟨0, .zeros 16, 0⟩

def encode (a : NetAddress) : Bytes :=
  Bytes.ofNatLE 8 a.services.toNat ++ a.ip.bytes ++ Bytes.ofNatBE 2 a.port.toNat

def read : Reader ReadError NetAddress := do
  let services ← Reader.uint64
  let ip ← Reader.fixed 16
  let port ← Reader.uint16BE
  return ⟨services, ip, port⟩

end NetAddress

/-- The introduction of a node. -/
structure Handshake where
  protocolVersion : UInt32
  services : UInt64
  timestamp : Int64
  receiver : NetAddress
  sender : NetAddress
  nonce : UInt64
  userAgent : String
  startHeight : Int32
  relay : Bool
  deriving DecidableEq

namespace Handshake

def ownUserAgent : String := "/bunnyhedger:0.1.0/"

def nodeNetwork : UInt64 := 0x01

/-- What this program says of itself: it offers blocks, and asks not to be sent transactions. -/
def announce (timestamp : Int64) (nonce : UInt64) (startHeight : Int32) : Handshake :=
  ⟨CashWallet.protocolVersion, nodeNetwork, timestamp, .unspecified, .unspecified, nonce,
    ownUserAgent, startHeight, false⟩

/-- All fields in order, the last one always. -/
def encode (h : Handshake) : Bytes :=
  Bytes.ofNatLE 4 h.protocolVersion.toNat ++ Bytes.ofNatLE 8 h.services.toNat ++
    Bytes.ofNatLE 8 h.timestamp.toUInt64.toNat ++ h.receiver.encode ++ h.sender.encode ++
    Bytes.ofNatLE 8 h.nonce.toNat ++ varText h.userAgent ++
    Bytes.ofNatLE 4 h.startHeight.toUInt32.toNat ++ [if h.relay then 1 else 0]

/-- Reads the last field, which may be missing. -/
def readRelay : Reader ReadError Bool := do
  let left ← Reader.remaining
  if left = 0 then return true else return (← Reader.byte) != 0

def read : Reader ReadError Handshake := do
  let version ← Reader.uint32
  let services ← Reader.uint64
  let timestamp ← Reader.int64
  let receiver ← NetAddress.read
  let sender ← NetAddress.read
  let nonce ← Reader.uint64
  let userAgent ← Reader.varText
  let startHeight ← Reader.int32
  let relay ← readRelay
  return ⟨version, services, timestamp, receiver, sender, nonce, userAgent, startHeight, relay⟩

end Handshake

end CashWallet
