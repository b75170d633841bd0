import CashWallet.Peer.Message

/-!
# `CashWallet/Peer/Frame.lean` — messages in a stream

A stream of bytes is cut into messages by frames: a fixed mark, the command in twelve bytes, the
length of the payload, and the first four bytes of its double hash. Everything in front of the
payload is checked before the payload is read as a message, in this order: the mark, that the
payload is all there, and the hash. Each failure has an error of its own, and **a payload that fails
the hash is never looked at**.

The command is text, and it is read as texts are: what stands before the first zero, with a
replacement character for what is none. The replacement takes three bytes when it is written again,
so a command can be read that has no place in a frame (`Frame.ofMessage` fails on it). Of the
commands that are known none is longer than ten bytes.

A stream yields its messages up to the first failure, and the failure (`Frame.decodeStream`). A
stream that ends inside a frame fails at that frame, with the messages before it.
-/

set_option autoImplicit false

namespace CashWallet

inductive FrameError
  | commandTooLong (command : String)
  deriving Repr, DecidableEq

def FrameError.message : FrameError → String
  | .commandTooLong command => s!"{command} is too long for a command string"

namespace Frame

/-- The mark in front of every frame of the main network. -/
def magic : Bytes := [0xe3, 0xe1, 0xf3, 0xe8]

def commandSize : Nat := 12

def headerSize : Nat := 4 + commandSize + 4 + 4

def checksum (payload : Bytes) : Bytes :=
  (Digest.sha256d payload).take 4

/-- The bytes in front of a payload, for a command of at most twelve bytes. -/
def header (command payload : Bytes) : Bytes :=
  magic ++ (command ++ List.replicate (commandSize - command.length) 0) ++
    Bytes.ofNatLE 4 payload.length ++ checksum payload

/-- A frame around a payload, if its command has room. -/
def encode (command : String) (payload : Bytes) : Except FrameError Bytes :=
  let commandBytes := Text.utf8 command
  if commandSize < commandBytes.length then .error (.commandTooLong command)
  else .ok (header commandBytes payload ++ payload)

def ofMessage (m : Message) : Except FrameError Bytes :=
  encode m.command m.payload

/-- The command in its twelve bytes: what stands before the first zero. -/
def commandText (b : Bytes) : String :=
  Text.ofUtf8Lossy (b.takeWhile (· != 0))

def read : Reader DecodeError Message := do
  let mark ← (Reader.take 4).fields
  if mark ≠ magic then Reader.fail (.badMagic mark)
  else
    let command ← (Reader.take commandSize).fields
    let length ← (Reader.natLE 4).fields
    let expected ← (Reader.take 4).fields
    let available ← Reader.remaining
    -- A payload that is not all there is told with both lengths.
    if available < length then Reader.fail (.lengthMismatch length available)
    else
      let payload ← (Reader.take length).fields
      let actual := checksum payload
      if actual ≠ expected then Reader.fail (.badChecksum expected actual)
      else
        match Message.decode (commandText command) payload with
        | .ok m => return m
        | .error e => Reader.fail e

/-- The first message of a stream, and how many bytes its frame takes. -/
def decode (b : Bytes) : Except DecodeError (Message × Nat) :=
  read.measure b

/-- The messages of a stream, each with the number of bytes its frame takes, up to the end or to the
first failure, which is told. Nothing at all is a frame cut short. A frame takes bytes, so what is
left gets shorter; the test for that only serves to say so. -/
def decodeStream (b : Bytes) : List (Message × Nat) × Option DecodeError :=
  match decode b with
  | .error e => ([], some e)
  | .ok (m, used) =>
    if 0 < used ∧ used < b.length then
      let (messages, failure) := decodeStream (b.drop used)
      ((m, used) :: messages, failure)
    else ([(m, used)], none)
termination_by b.length
decreasing_by simp only [List.length_drop]; omega

end Frame

end CashWallet
