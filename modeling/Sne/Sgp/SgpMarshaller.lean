import Sne.Sgp.PacketCoder

/-!
# The marshaller

`SgpMarshaller.cpp`. The coder is shared with the session that the callback
belongs to, so that a message may change its seeds while it is handled. A callback
therefore acts on the coder, on the received block and on a state of its own.
-/

namespace Sne.Sgp

open Sne.Base Sne.Core

set_option autoImplicit false

/-- `MarshallerCallback::messageUnmarshalled`. -/
abbrev MarshallerCallback (κ χ : Type) := MessageType → StreamM (κ × MemoryBlock × χ) Bool

structure SgpMarshaller (κ : Type) where
  packetHeaderSize : Nat
  packetCoder : κ
  headerForReceive : CsPacketHeader
  recvBlock : MemoryBlock
  msgBlock : MemoryBlock

structure Marshalled (κ : Type) where
  succeeded : Bool
  mblock : MemoryBlock
  marshaller : SgpMarshaller κ

structure Unmarshalled (κ χ : Type) where
  succeeded : Bool
  receivedMessageCount : Nat
  marshaller : SgpMarshaller κ
  context : χ

namespace SgpMarshaller

variable {κ χ : Type} [PacketCoder κ]

def create (packetCoder : κ) (recvBlock msgBlock : MemoryBlock) : SgpMarshaller κ :=
  { packetHeaderSize := PacketCoder.getHeaderSize packetCoder
    packetCoder
    headerForReceive := .empty
    recvBlock := recvBlock.reset
    msgBlock := msgBlock.reset }

def reset (now : TimePoint) (marshaller : SgpMarshaller κ) : SgpMarshaller κ :=
  { marshaller with
    packetCoder := PacketCoder.reset now marshaller.packetCoder
    headerForReceive := .empty
    recvBlock := marshaller.recvBlock.reset
    msgBlock := marshaller.msgBlock.reset }

def marshal (mblock : MemoryBlock) (messageType : MessageType) (marshaller : SgpMarshaller κ) :
    Marshalled κ :=
  if PacketCoder.isValidPacket marshaller.packetCoder mblock then
    let header : CsPacketHeader :=
      { bodySize := PacketCoder.getBodySize marshaller.packetCoder mblock, messageType }
    let encoded := PacketCoder.encode mblock header marshaller.packetCoder
    { succeeded := encoded.succeeded
      mblock := encoded.mblock
      marshaller := { marshaller with packetCoder := encoded.coder } }
  else
    { succeeded := false, mblock, marshaller }

def isPacketHeaderArrived (marshaller : SgpMarshaller κ) : Bool :=
  marshaller.recvBlock.length ≥ marshaller.packetHeaderSize

def isMessageArrived (marshaller : SgpMarshaller κ) : Bool :=
  marshaller.recvBlock.length ≥
    marshaller.packetHeaderSize + marshaller.headerForReceive.bodySize.toNat

def parseHeader (marshaller : SgpMarshaller κ) : Bool × SgpMarshaller κ :=
  if marshaller.headerForReceive.isValid then
    (true, marshaller)
  else
    let read := PacketCoder.readHeader marshaller.headerForReceive marshaller.recvBlock
      marshaller.packetCoder
    (read.succeeded, { marshaller with headerForReceive := read.header })

def parseMessage (marshaller : SgpMarshaller κ) : Bool × SgpMarshaller κ :=
  let messageSize := marshaller.packetHeaderSize + marshaller.headerForReceive.bodySize.toNat
  let recvBlock := marshaller.recvBlock
  let msgBlock := (marshaller.msgBlock.reset.size messageSize).copyFrom
    ((recvBlock.buffer.drop recvBlock.rdPtr).take messageSize)
  let recvBlock := (recvBlock.advanceRdPtr messageSize).crunch
  let decoded := PacketCoder.decode msgBlock marshaller.packetCoder
  let marshaller := { marshaller with
    recvBlock, msgBlock := decoded.mblock, packetCoder := decoded.coder }
  if decoded.succeeded then
    let marshaller := { marshaller with
      msgBlock := PacketCoder.advanceToBody marshaller.packetCoder marshaller.msgBlock }
    (isValidMessage marshaller.headerForReceive.messageType, marshaller)
  else
    (false, marshaller)

/-- The loop of `unmarshal`. A round that does not end it uses up a packet, so
that the unread length bounds the number of rounds. -/
def unmarshalLoop (callback : MarshallerCallback κ χ) :
    Nat → Nat → SgpMarshaller κ → χ → Unmarshalled κ χ
  | 0, receivedMessageCount, marshaller, context =>
      { succeeded := true, receivedMessageCount, marshaller, context }
  | fuel + 1, receivedMessageCount, marshaller, context =>
      if !marshaller.isPacketHeaderArrived then
        { succeeded := true, receivedMessageCount, marshaller, context }
      else
        let (headerParsed, marshaller) := marshaller.parseHeader
        if !headerParsed then
          { succeeded := false, receivedMessageCount, marshaller, context }
        else if !marshaller.isMessageArrived then
          { succeeded := true, receivedMessageCount, marshaller, context }
        else
          let (messageParsed, marshaller) := marshaller.parseMessage
          if !messageParsed then
            { succeeded := false, receivedMessageCount, marshaller, context }
          else
            let receivedMessageCount := receivedMessageCount + 1
            match callback marshaller.headerForReceive.messageType
              (marshaller.packetCoder, marshaller.msgBlock, context) with
            | .ok true (packetCoder, msgBlock, context) =>
                unmarshalLoop callback fuel receivedMessageCount
                  { marshaller with packetCoder, msgBlock, headerForReceive := .empty } context
            | .ok false (packetCoder, msgBlock, context) =>
                { succeeded := false, receivedMessageCount
                  marshaller := { marshaller with packetCoder, msgBlock }, context }
            | .error _ (packetCoder, msgBlock, context) =>
                { succeeded := false, receivedMessageCount
                  marshaller := { marshaller with packetCoder, msgBlock }, context }

def unmarshal (callback : MarshallerCallback κ χ) (marshaller : SgpMarshaller κ) (context : χ) :
    Unmarshalled κ χ :=
  unmarshalLoop callback (marshaller.recvBlock.length + 1) 0 marshaller context

def acquireSendBlock (marshaller : SgpMarshaller κ) (acquired : MemoryBlock) : MemoryBlock :=
  PacketCoder.reserveHeader marshaller.packetCoder acquired.reset

/-- `TcpSessionImpl::readMessage` and the arrival of the bytes that it asked for. -/
def receive (chunk : List UInt8) (marshaller : SgpMarshaller κ) : SgpMarshaller κ :=
  let spare := marshaller.recvBlock.capacity / 3
  { marshaller with recvBlock := (marshaller.recvBlock.reserve spare).copyFrom chunk }

/-- Chunks arrive one after another; the session disconnects when `unmarshal` fails. -/
def receiveChunks (callback : MarshallerCallback κ χ) :
    List (List UInt8) → SgpMarshaller κ → χ → Unmarshalled κ χ
  | [], marshaller, context => { succeeded := true, receivedMessageCount := 0, marshaller, context }
  | chunk :: chunks, marshaller, context =>
      let unmarshalled := (marshaller.receive chunk).unmarshal callback context
      if unmarshalled.succeeded then
        receiveChunks callback chunks unmarshalled.marshaller unmarshalled.context
      else
        unmarshalled

theorem acquire_send_block_valid (marshaller : SgpMarshaller κ) {acquired : MemoryBlock}
    (roomy : PacketCoder.getHeaderSize marshaller.packetCoder ≤ acquired.capacity) :
    (marshaller.acquireSendBlock acquired).Valid ∧
      (marshaller.acquireSendBlock acquired).contents.length =
        PacketCoder.getHeaderSize marshaller.packetCoder := by
  have valid : (marshaller.acquireSendBlock acquired).Valid := by
    constructor
    · exact Nat.zero_le _
    · simp only [acquireSendBlock, PacketCoder.reserveHeader, MemoryBlock.advanceWrPtr,
        MemoryBlock.reset, Nat.zero_add]
      exact roomy
  refine ⟨valid, ?_⟩
  rw [MemoryBlock.contents_length valid]
  simp [acquireSendBlock, PacketCoder.reserveHeader, MemoryBlock.advanceWrPtr, MemoryBlock.reset,
    MemoryBlock.length]

def sendBlock (marshaller : SgpMarshaller κ) (acquired : MemoryBlock)
    (roomy : PacketCoder.getHeaderSize marshaller.packetCoder ≤ acquired.capacity)
    (body : List UInt8) : SendBlock (PacketCoder.getHeaderSize marshaller.packetCoder) where
  mblock := (marshaller.acquireSendBlock acquired).copyFrom body
  valid := MemoryBlock.copy_from_valid (marshaller.acquire_send_block_valid roomy).1 body
  atBase := by
    rw [MemoryBlock.copy_from_rdPtr]
    rfl
  reserved := by
    obtain ⟨valid, header⟩ := marshaller.acquire_send_block_valid roomy
    rw [← MemoryBlock.contents_length (MemoryBlock.copy_from_valid valid body),
      MemoryBlock.copy_from_contents valid, List.length_append, header]
    omega

theorem send_block_body (marshaller : SgpMarshaller κ) (acquired : MemoryBlock)
    (roomy : PacketCoder.getHeaderSize marshaller.packetCoder ≤ acquired.capacity)
    (body : List UInt8) : (marshaller.sendBlock acquired roomy body).body = body := by
  obtain ⟨valid, header⟩ := marshaller.acquire_send_block_valid roomy
  have contents := MemoryBlock.copy_from_contents valid body
  simp only [SendBlock.body, sendBlock]
  rw [contents, List.drop_left' header]

end SgpMarshaller

/-- A message to be sent with its block. -/
structure Outgoing (headerSize : Nat) extends SendBlock headerSize where
  messageType : MessageType
  typeValid : isValidMessage messageType = true

namespace Outgoing

variable {headerSize : Nat}

def message (outgoing : Outgoing headerSize) : MessageType × List UInt8 :=
  (outgoing.messageType, outgoing.body)

end Outgoing

structure MarshalledBytes (κ : Type) where
  succeeded : Bool
  bytes : List UInt8
  marshaller : SgpMarshaller κ

def SgpMarshaller.marshalMessages {κ : Type} [PacketCoder κ] {headerSize : Nat} :
    List (Outgoing headerSize) → SgpMarshaller κ → MarshalledBytes κ
  | [], marshaller => { succeeded := true, bytes := [], marshaller }
  | outgoing :: rest, marshaller =>
      let marshalled := marshaller.marshal outgoing.mblock outgoing.messageType
      let others := marshalMessages rest marshalled.marshaller
      { succeeded := marshalled.succeeded && others.succeeded
        bytes := marshalled.mblock.contents ++ others.bytes
        marshaller := others.marshaller }

def recorded {κ χ : Type} (callback : MarshallerCallback κ χ) :
    MarshallerCallback κ (χ × List (MessageType × List UInt8)) :=
  fun messageType (coder, mblock, context, log) =>
    match callback messageType (coder, mblock, context) with
    | .ok accepted (coder, after, context) =>
        .ok accepted (coder, after, context, log ++ [(messageType, mblock.contents)])
    | .error e (coder, after, context) =>
        .error e (coder, after, context, log ++ [(messageType, mblock.contents)])

def Accepts {κ χ : Type} (callback : MarshallerCallback κ χ) : Prop :=
  ∀ messageType state, ∃ after, callback messageType state = .ok true after

def acceptAll {κ : Type} : MarshallerCallback κ Unit := fun _ state => .ok true state

theorem accept_all_accepts {κ : Type} : Accepts (acceptAll (κ := κ)) :=
  fun _ state => ⟨state, rfl⟩

end Sne.Sgp
