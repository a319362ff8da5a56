import PetsServer.Muduo.Buffer
import PetsServer.Foundations.Loop

/-!
# The codec

`Codec::onMessage` takes the complete messages off a connection's input buffer and pushes each of
them, as a packet, to the dispatcher; `Codec::SendMsg` puts the length in front of a message. The
loop of `onMessage` is a `Foundations.loop` over `onMessagePass`, its body. The model fails where
the source would fail an assertion, overflow an `int` or throw.
-/

namespace PetsServer

open Foundations

/-- What a connection's context, a `boost::any`, holds. -/
inductive Context
  | empty
  /-- Before a player's object exists: the connection's number. -/
  | dnid (d : Dnid)
  | pet (p : Pet)
  deriving DecidableEq, Repr

/-- `SPacket`. The buffer is the block `malloc` returned, the context a pointer to the player's
object; either can be null. -/
structure SPacket where
  dnid : Dnid
  buffer : Option (List Byte)
  context : Option Pet
  deriving DecidableEq, Repr

/-- The message in a packet. -/
def SPacket.body (pack : SPacket) : List Byte := pack.buffer.getD []

/-- The two casts of the connection's context: the packet's number and player's object. -/
def Context.cast : Context → Except Fault (Dnid × Option Pet)
  | .pet p => .ok (p.getDnid, some p)
  | .dnid d => .ok (d, none)
  | .empty => .error .badAnyCast

/-- A connection after `onConnection`, which has set the context before any message arrives: the
casts succeed. -/
structure Established where
  context : Context
  dnid : Dnid
  pet : Option Pet
  cast_eq : context.cast = .ok (dnid, pet)

/-- The connection of a client without a player's object. -/
def Established.ofDnid (d : Dnid) : Established := ⟨.dnid d, d, none, rfl⟩

/-- `malloc` and `memcpy`: the block holds the message. The C library returns a block, and not
null, also for a message of length 0. -/
def mallocCopy (data : List Byte) : Option (List Byte) := some data

/-- The state of the loop in `onMessage`: the buffer, and the packets pushed so far. -/
structure Decoding where
  buf : Buffer
  pushed : List SPacket

/-- What a call of `onMessage` did: the buffer it leaves, the packets it pushed, and whether it
called `conn->shutdown()`. -/
structure Decoded where
  buf : Buffer
  pushed : List SPacket
  shutdown : Bool

/-- An `int` converted to `size_t`. -/
def intToSize (i : Int32) : ℕ := (i.toInt % 2 ^ 64).toNat

/-- The branch of the loop that takes a message of `len` bytes off the buffer and pushes it. -/
def takeMessage (context : Context) (s : Decoding) (len : Int32) : Except Fault Decoding := do
  let buf ← s.buf.retrieve headMsgLen
  let data := buf.peek (intToSize len)
  let (dnid, pet) ← context.cast
  let pack : SPacket := ⟨dnid, mallocCopy data, pet⟩
  let buf ← buf.retrieve (intToSize len)
  .ok ⟨buf, s.pushed ++ [pack]⟩

/-- One pass of the `while` loop in `onMessage`. -/
def onMessagePass (context : Context) (s : Decoding) : Except Fault (Pass Decoding Decoded) :=
  if headMsgLen ≤ s.buf.readableBytes then
    let msgLen : Dword := readWord (s.buf.peek headMsgLen)
    let len : Int32 := (networkToHost32 msgLen).toInt32
    if 65536 < len ∨ len < 0 then
      .ok (.leave ⟨s.buf, s.pushed, true⟩)
    else do
      let frameLen ← addInt len (Int32.ofNat headMsgLen)
      if intToSize frameLen ≤ s.buf.readableBytes then
        let s' ← takeMessage context s len
        .ok (.again s')
      else
        .ok (.leave ⟨s.buf, s.pushed, false⟩)
  else
    .ok (.leave ⟨s.buf, s.pushed, false⟩)

/-- `Codec::onMessage`. Every pass that goes round again takes at least a header off the buffer. -/
def onMessage (context : Context) (buf : Buffer) : Except Fault Decoded :=
  loop (onMessagePass context) .stillRunning (buf.readableBytes + 1) ⟨buf, []⟩

/-- What is sent: `data` and its size, a `DWORD`. -/
structure Payload where
  data : List Byte
  length_lt : data.length < 2 ^ 32

/-- The argument `size`. -/
def Payload.size (p : Payload) : Dword := UInt32.ofNat p.data.length

/-- `Codec::SendMsg`: the bytes handed to the connection. -/
def sendMsg (p : Payload) : Except Fault (List Byte) := do
  let buf ← Buffer.new.append p.data
  let len : Int32 := p.size.toInt32
  let be32 := hostToNetwork32 len.toUInt32
  let buf ← buf.prepend (wordBytes be32)
  .ok buf.content

end PetsServer
