import Sne.Library.Runs
import Sne.Sgp.SecureRoundTrip

/-!
# Refused packets

`encode` refuses a block that is too short before it draws a key, and a header that is
not valid after it has drawn one. The key of a dynamic generator is then lost to the
peer, which never sees the packet. A generator that repeats its key, as the static one
does, loses nothing.
-/

namespace Sne.Sgp

open Sne.Base Sne.Security Sne.Library.Runs

set_option autoImplicit false

namespace CipherKeyGenerator

variable {random : Rand48}

theorem drawing_keeps_iff (moves : ∀ state, (random.next state).2 ≠ state)
    (generator : CipherKeyGenerator random) :
    generator.getEncryptCipherKey.2.encryptSource = generator.encryptSource ↔
      generator.isDynamic = false := by
  cases generator with
  | static encryptSeed decryptSeed =>
      constructor
      · intro _
        rfl
      · intro _
        rfl
  | dynamic encryptKey decryptKey =>
      constructor
      · intro kept
        exact absurd (KeySource.dynamic.inj kept) (moves encryptKey)
      · intro static
        cases static

end CipherKeyGenerator

namespace SecurePacketCoder

variable {suite : CipherSuite} {κ : Type} [PacketCoder κ]

theorem encode_generator (mblock : MemoryBlock) (header : CsPacketHeader)
    (coder : SecurePacketCoder suite κ) :
    (coder.encode mblock header).coder.cipherKeyGenerator =
      if mblock.length < coder.securePacketHeaderSize then coder.cipherKeyGenerator
      else coder.cipherKeyGenerator.getEncryptCipherKey.2 := by
  by_cases short : mblock.length < coder.securePacketHeaderSize
  · simp only [encode, if_pos short]
  · simp only [encode, if_neg short]
    split
    · rfl
    · split
      · rfl
      · rfl

theorem encode_keeps_iff (moves : ∀ state, (suite.random.next state).2 ≠ state)
    (mblock : MemoryBlock) (header : CsPacketHeader) (coder : SecurePacketCoder suite κ) :
    (coder.encode mblock header).coder.cipherKeyGenerator.encryptSource =
        coder.cipherKeyGenerator.encryptSource ↔
      mblock.length < coder.securePacketHeaderSize ∨ coder.cipherKeyGenerator.isDynamic = false := by
  rw [encode_generator]
  by_cases short : mblock.length < coder.securePacketHeaderSize
  · rw [if_pos short]
    exact ⟨fun _ => Or.inl short, fun _ => rfl⟩
  · rw [if_neg short, or_iff_right short]
    exact CipherKeyGenerator.drawing_keeps_iff moves _

/-- With the plain coder below, what is accepted has a valid type and room for the headers. -/
theorem encode_accepts (mblock : MemoryBlock) (header : CsPacketHeader)
    (coder : SecurePacketCoder suite CsPacketCoder)
    (accepted : (coder.encode mblock header).succeeded = true) :
    isValidMessage header.messageType = true ∧ secureHeaderSize ≤ mblock.length := by
  by_cases short : mblock.length < coder.securePacketHeaderSize
  · simp only [encode, if_pos short, Bool.false_eq_true] at accepted
  · refine ⟨?_, Nat.not_lt.mp short⟩
    simp only [encode, if_neg short] at accepted
    split at accepted
    · cases accepted
    · split at accepted
      · rename_i componentAccepted
        change (PacketCoder.encodeImpl _ _ _ _).succeeded = true at componentAccepted
        simp only [PacketCoder.encodeImpl] at componentAccepted
        split at componentAccepted
        · rw [← componentAccepted, CsPacketHeader.is_valid_eq]
        · cases componentAccepted
      · cases accepted

theorem marshal_generator (mblock : MemoryBlock) (messageType : MessageType)
    (marshaller : SgpMarshaller (SecurePacketCoder suite κ)) :
    (marshaller.marshal mblock messageType).marshaller.packetCoder.cipherKeyGenerator =
      (marshaller.packetCoder.encode mblock
        { bodySize := PacketCoder.getBodySize marshaller.packetCoder mblock
          messageType }).coder.cipherKeyGenerator := by
  by_cases valid : PacketCoder.isValidPacket marshaller.packetCoder mblock = true
  · simp only [SgpMarshaller.marshal, if_pos valid]
    rfl
  · have short : mblock.length < marshaller.packetCoder.securePacketHeaderSize := by
      simp only [PacketCoder.isValidPacket, decide_eq_true_eq] at valid
      exact Nat.not_le.mp valid
    simp only [SgpMarshaller.marshal, if_neg valid, encode, if_pos short]

end SecurePacketCoder

structure Attempt where
  mblock : MemoryBlock
  header : CsPacketHeader
  valid : mblock.Valid
  atBase : mblock.rdPtr = 0

namespace Attempt

def body (attempt : Attempt) : List UInt8 := attempt.mblock.contents.drop secureHeaderSize

def sendBlock (attempt : Attempt) (roomy : secureHeaderSize ≤ attempt.mblock.length) :
    SendBlock secureHeaderSize where
  mblock := attempt.mblock
  valid := attempt.valid
  atBase := attempt.atBase
  reserved := roomy

end Attempt

/-- A packet that was sent: the body and what the peer made of it. -/
structure Arrival where
  body : List UInt8
  decoded : Option (List UInt8)

/-- The peer has the body, up to the zero bytes of the padding. -/
def Arrival.Restored (suite : CipherSuite) (arrival : Arrival) : Prop :=
  arrival.decoded = some (padded suite.engine.blockSize arrival.body)

/-- Two coders with the packets that went from one to the other. -/
structure Link (suite : CipherSuite) where
  sender : SecurePacketCoder suite CsPacketCoder
  peer : SecurePacketCoder suite CsPacketCoder
  arrivals : List Arrival := []

namespace Link

variable {suite : CipherSuite}

/-- A refused packet does not reach the peer. -/
def send (attempt : Attempt) (link : Link suite) : Link suite :=
  let encoded := link.sender.encode attempt.mblock attempt.header
  if encoded.succeeded then
    let decoded := link.peer.decode (packetBlock encoded.mblock.contents)
    { sender := encoded.coder
      peer := decoded.coder
      arrivals := link.arrivals ++ [{
        body := attempt.body
        decoded := if decoded.succeeded then
            some (PacketCoder.advanceToBody decoded.coder decoded.mblock).contents
          else none }] }
  else
    { link with sender := encoded.coder }

def Sends (link : Link suite) (attempt : Attempt) (next : Link suite) : Prop :=
  next = link.send attempt

/-- No key is drawn for nothing: the header is valid, or the block is too short for a key to
be drawn, or drawing one changes nothing. -/
def WastesNoKey (link : Link suite) (attempt : Attempt) : Prop :=
  isValidMessage attempt.header.messageType = true ∨ attempt.mblock.length < secureHeaderSize ∨
    link.sender.cipherKeyGenerator.isDynamic = false

structure Healthy (link : Link suite) : Prop where
  inStep : InStep link.sender link.peer
  restored : ∀ arrival ∈ link.arrivals, arrival.Restored suite

/-- An accepted packet is decoded by a peer in step. -/
theorem send_accepted (lawful : suite.engine.Lawful) (attempt : Attempt) (link : Link suite)
    (healthy : link.Healthy) (typeValid : isValidMessage attempt.header.messageType = true)
    (roomy : secureHeaderSize ≤ attempt.mblock.length) : (link.send attempt).Healthy := by
  have inStep := healthy.inStep
  rcases encode_secures lawful link.sender (attempt.sendBlock roomy) attempt.header typeValid with
    ⟨mblock, encryptCipher, encodes, contents⟩
  have sameKey : link.peer.cipherKeyGenerator.decryptSource.key =
      link.sender.cipherKeyGenerator.encryptSource.key := by
    rw [inStep]
  rcases decode_restores lawful link.peer attempt.header.messageType (attempt.sendBlock roomy).body
    _ sameKey with ⟨decryptCipher, decodes⟩
  rw [← contents] at decodes
  change link.sender.encode attempt.mblock attempt.header = _ at encodes
  simp only [send, encodes, decodes, if_true]
  constructor
  · exact inStep.advance _ _
  · intro arrival member
    rcases List.mem_append.mp member with earlier | last
    · exact healthy.restored arrival earlier
    · rw [List.mem_singleton] at last
      rw [last, Arrival.Restored, plain_packet_body]
      rfl

theorem send_refused (attempt : Attempt) (link : Link suite) (healthy : link.Healthy)
    (refused : (link.sender.encode attempt.mblock attempt.header).succeeded = false)
    (kept : (link.sender.encode attempt.mblock attempt.header).coder.cipherKeyGenerator.encryptSource =
      link.sender.cipherKeyGenerator.encryptSource) : (link.send attempt).Healthy := by
  have sent : link.send attempt =
      { link with sender := (link.sender.encode attempt.mblock attempt.header).coder } := by
    simp only [send, refused, Bool.false_eq_true, if_false]
  rw [sent]
  constructor
  · exact Eq.trans kept healthy.inStep
  · exact healthy.restored

theorem send_healthy (lawful : suite.engine.Lawful)
    (moves : ∀ state, (suite.random.next state).2 ≠ state) (attempt : Attempt) (link : Link suite)
    (healthy : link.Healthy) (wastesNoKey : link.WastesNoKey attempt) :
    (link.send attempt).Healthy := by
  by_cases accepted : isValidMessage attempt.header.messageType = true ∧
      secureHeaderSize ≤ attempt.mblock.length
  · exact link.send_accepted lawful attempt healthy accepted.1 accepted.2
  · have noKey : attempt.mblock.length < secureHeaderSize ∨
        link.sender.cipherKeyGenerator.isDynamic = false := by
      rcases wastesNoKey with typeValid | noKey
      · left
        exact Nat.not_le.mp fun roomy => accepted ⟨typeValid, roomy⟩
      · exact noKey
    have kept := (SecurePacketCoder.encode_keeps_iff moves attempt.mblock attempt.header
      link.sender).mpr noKey
    have refused : (link.sender.encode attempt.mblock attempt.header).succeeded = false :=
      Bool.not_eq_true _ ▸ fun succeeded => accepted (SecurePacketCoder.encode_accepts _ _ _ succeeded)
    exact link.send_refused attempt healthy refused kept

theorem run_healthy (lawful : suite.engine.Lawful)
    (moves : ∀ state, (suite.random.next state).2 ≠ state) {first last : Link suite}
    {attempts : List Attempt} (run : Run (Where Sends WastesNoKey) first attempts last)
    (healthy : first.Healthy) : last.Healthy := by
  apply run.invariant (fun _ link => link.Healthy) healthy
  rintro _ link attempt _ healthyBefore ⟨rfl, wastesNoKey⟩
  exact link.send_healthy lawful moves attempt healthyBefore wastesNoKey

end Link

/-- A refused packet leaves the generator as it was exactly if the block was too short for a
key to be drawn or the generator is static. A peer decodes every packet that was not refused,
as long as no key is lost. -/
theorem refused_packet_keeps_key_iff {suite : CipherSuite} (lawful : suite.engine.Lawful)
    (moves : ∀ state, (suite.random.next state).2 ≠ state) :
    (∀ {κ : Type} [PacketCoder κ] (coder : SecurePacketCoder suite κ) (mblock : MemoryBlock)
      (header : CsPacketHeader), (coder.encode mblock header).succeeded = false →
      ((coder.encode mblock header).coder.cipherKeyGenerator.encryptSource =
          coder.cipherKeyGenerator.encryptSource ↔
        mblock.length < coder.securePacketHeaderSize ∨
          coder.cipherKeyGenerator.isDynamic = false)) ∧
    (∀ {κ : Type} [PacketCoder κ] (marshaller : SgpMarshaller (SecurePacketCoder suite κ))
      (mblock : MemoryBlock) (messageType : MessageType),
      (marshaller.marshal mblock messageType).succeeded = false →
      ((marshaller.marshal mblock messageType).marshaller.packetCoder.cipherKeyGenerator.encryptSource =
          marshaller.packetCoder.cipherKeyGenerator.encryptSource ↔
        mblock.length < marshaller.packetCoder.securePacketHeaderSize ∨
          marshaller.packetCoder.cipherKeyGenerator.isDynamic = false)) ∧
    ∀ (sender peer : SecurePacketCoder suite CsPacketCoder), InStep sender peer →
      ∀ (attempts : List Attempt) (last : Link suite),
        Run (Where Link.Sends Link.WastesNoKey) { sender, peer } attempts last →
        InStep last.sender last.peer ∧ ∀ arrival ∈ last.arrivals, arrival.Restored suite := by
  refine ⟨?_, ?_, ?_⟩
  · intro κ coding coder mblock header _
    exact SecurePacketCoder.encode_keeps_iff moves mblock header coder
  · intro κ coding marshaller mblock messageType _
    rw [SecurePacketCoder.marshal_generator]
    exact SecurePacketCoder.encode_keeps_iff moves mblock _ marshaller.packetCoder
  · intro sender peer inStep attempts last run
    have healthy : Link.Healthy { sender, peer } := by
      constructor
      · exact inStep
      · intro arrival member
        cases member
    have healthyLast := Link.run_healthy lawful moves run healthy
    exact ⟨healthyLast.inStep, healthyLast.restored⟩

/-- The state of `rand48` always changes: the multiplier and the increment are odd. -/
theorem rand48_moves (state : Nat) : (rand48.next state).2 ≠ state := by
  change (0x5DEECE66D * state + 0xB) % 2 ^ 48 ≠ state
  omega

def Attempt.zeros (length : Nat) (messageType : MessageType) : Attempt where
  mblock := packetBlock (List.replicate length 0)
  header := { bodySize := 0, messageType }
  valid := by
    constructor
    · exact Nat.zero_le _
    · exact Nat.le_refl _
  atBase := rfl

def dynamicCoder : SecurePacketCoder teaSuite CsPacketCoder := .create {} 1000 true

theorem refused_packet_keeps_key_iff_short :
    (dynamicCoder.encode (Attempt.zeros 3 csmtRpc).mblock
        (Attempt.zeros 3 csmtRpc).header).coder.cipherKeyGenerator.encryptSource =
      dynamicCoder.cipherKeyGenerator.encryptSource ∧
    ∀ arrival ∈ (((Link.mk dynamicCoder dynamicCoder []).send (Attempt.zeros 3 csmtRpc)).send
      (Attempt.zeros secureHeaderSize csmtRpc)).arrivals, arrival.Restored teaSuite := by
  have keeps := refused_packet_keeps_key_iff tea_suite_lawful rand48_moves
  constructor
  · exact (keeps.1 dynamicCoder _ _ rfl).mpr (Or.inl (by decide))
  · have run : Run (Where Link.Sends Link.WastesNoKey) (Link.mk dynamicCoder dynamicCoder [])
        ([] ++ [Attempt.zeros 3 csmtRpc] ++ [Attempt.zeros secureHeaderSize csmtRpc]) _ :=
      .next (.next (.start _) ⟨rfl, Or.inr (Or.inl (by decide))⟩) ⟨rfl, Or.inl rfl⟩
    exact (keeps.2.2 dynamicCoder dynamicCoder rfl _ _ run).2

/-- A message type that is not valid costs the key of the packet, and the peer refuses the next. -/
theorem refused_packet_loses_key :
    let refused := dynamicCoder.encode (Attempt.zeros secureHeaderSize 256).mblock
      (Attempt.zeros secureHeaderSize 256).header
    let next := refused.coder.encode (Attempt.zeros secureHeaderSize csmtRpc).mblock
      (Attempt.zeros secureHeaderSize csmtRpc).header
    refused.succeeded = false ∧
    refused.coder.cipherKeyGenerator.encryptSource ≠ dynamicCoder.cipherKeyGenerator.encryptSource ∧
    next.succeeded = true ∧
    (dynamicCoder.decode (packetBlock next.mblock.contents)).succeeded = false := by
  refine ⟨by decide, ?_, by decide, by decide⟩
  intro same
  have noKey := (SecurePacketCoder.encode_keeps_iff rand48_moves _ _ dynamicCoder).mp same
  exact absurd noKey (by decide)

end Sne.Sgp
