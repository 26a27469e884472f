import Sne.Sgp.PacketFraming
import Sne.Sgp.TeaSuite

/-!
# Secure packets in lock step

`securePacket` is the packet that `encode` leaves in the block, as a function of the
key. A receiver whose next key is the same takes it back. Both sides draw one key
for each packet, so that generators that agree once agree after every packet.
-/

namespace Sne.Sgp

open Sne.Base Sne.Security

set_option autoImplicit false

def secureHeaderSize : Nat := CsPacketHeader.getHeaderSize + AdditionalPacketHeader.headerSize

/-- The number of zero bytes that make a body whole. -/
def fill (blockSize bodySize : Nat) : Nat := (blockSize - bodySize % blockSize) % blockSize

def padded (blockSize : Nat) (body : List UInt8) : List UInt8 :=
  body ++ List.replicate (fill blockSize body.length) 0

theorem fill_lt {blockSize : Nat} (positive : 0 < blockSize) (bodySize : Nat) :
    fill blockSize bodySize < blockSize :=
  Nat.mod_lt _ positive

theorem padded_length (blockSize : Nat) (body : List UInt8) :
    (padded blockSize body).length = body.length + fill blockSize body.length := by
  rw [padded, List.length_append, List.length_replicate]

theorem padded_whole {blockSize : Nat} (positive : 0 < blockSize) (body : List UInt8) :
    (padded blockSize body).length % blockSize = 0 := by
  have small := Nat.mod_lt body.length positive
  rw [padded_length, fill, Nat.add_mod_mod]
  by_cases whole : body.length % blockSize = 0
  · rw [whole, Nat.sub_zero, Nat.add_mod_right, whole]
  · have split := Nat.div_add_mod body.length blockSize
    have next : body.length + (blockSize - body.length % blockSize) =
        blockSize * (body.length / blockSize + 1) := by
      rw [Nat.mul_add]
      omega
    rw [next, Nat.mul_mod_right]

section Coder

variable {suite : CipherSuite}

theorem secure_header_size_eq (coder : SecurePacketCoder suite CsPacketCoder) :
    coder.securePacketHeaderSize = secureHeaderSize := rfl

theorem raw_header_size_eq (coder : SecurePacketCoder suite CsPacketCoder) :
    coder.rawPacketHeaderSize = CsPacketHeader.getHeaderSize := rfl

def secureHeader (suite : CipherSuite) (messageType : MessageType) (body : List UInt8) :
    CsPacketHeader :=
  { bodySize := UInt16.ofNat (padded suite.engine.blockSize body).length, messageType }

def additionalHeader (suite : CipherSuite) (cipherKey : Key) (plainBody : List UInt8) :
    AdditionalPacketHeader :=
  { fingerPrint := getFingerPrint cipherKey
    checkSum := getCheckSum suite plainBody (getFingerPrint cipherKey) }

def securePacket (suite : CipherSuite) (cipherKey : Key) (messageType : MessageType)
    (body : List UInt8) : List UInt8 :=
  (secureHeader suite messageType body).write ++
    ((additionalHeader suite cipherKey (padded suite.engine.blockSize body)).write ++
      BlockCipher.encrypted suite.engine cipherKey (padded suite.engine.blockSize body))

/-- A body whose length is a whole number of blocks passes the cipher, the empty body by not reaching
it. -/
theorem whole_precondition {blockSize : Nat} {input : List UInt8}
    (whole : input.length % blockSize = 0) (some : input.length > 0) :
    precondition blockSize input = true := by
  simp [precondition, whole, some]

theorem align_pads (lawful : suite.engine.Lawful) (coder : SecurePacketCoder suite CsPacketCoder)
    (block : SendBlock secureHeaderSize) :
    ∃ aligned : SendBlock secureHeaderSize, coder.align block.mblock = aligned.mblock ∧
      aligned.body = padded suite.engine.blockSize block.body := by
  have positive := lawful.block_positive
  have size : block.mblock.length - coder.securePacketHeaderSize = block.body.length := by
    have length := block.length_eq
    change block.mblock.length - secureHeaderSize = _
    omega
  by_cases whole : block.body.length % suite.engine.blockSize = 0
  · refine ⟨block, ?_, ?_⟩
    · simp only [SecurePacketCoder.align, size, whole]
      rw [if_neg (by omega), if_neg (by omega)]
    · have none : fill suite.engine.blockSize block.body.length = 0 := by
        rw [fill, whole, Nat.sub_zero, Nat.mod_self]
      rw [padded, none, List.replicate_zero, List.append_nil]
  · have small := Nat.mod_lt block.body.length positive
    have delta : fill suite.engine.blockSize block.body.length =
        suite.engine.blockSize - block.body.length % suite.engine.blockSize :=
      Nat.mod_eq_of_lt (by omega)
    refine ⟨block.append (List.replicate (fill suite.engine.blockSize block.body.length) 0), ?_, ?_⟩
    · simp only [SecurePacketCoder.align, size]
      rw [if_neg (by omega), if_pos (by omega), ← delta]
      simp only [SendBlock.append, MemoryBlock.copyFrom, List.length_replicate]
    · rw [SendBlock.append_body, padded]

theorem cipher_encrypts (lawful : suite.engine.Lawful) (cipherKey : Key) (body : List UInt8)
    (cipher : BlockCipher suite.engine.keyLength) :
    ∃ after, (if (padded suite.engine.blockSize body).length > 0 then
        cipher.encrypt suite.engine (padded suite.engine.blockSize body) cipherKey
      else { output := some [], cipher }) =
        { output := some (BlockCipher.encrypted suite.engine cipherKey
            (padded suite.engine.blockSize body))
          cipher := after } := by
  have whole := padded_whole lawful.block_positive body
  by_cases some : (padded suite.engine.blockSize body).length > 0
  · rw [if_pos some]
    have output := BlockCipher.encrypt_output suite.engine _ cipherKey cipher
      (whole_precondition whole some)
    exact ⟨_, congrArg (fun result => Ciphered.mk result _) output⟩
  · rw [if_neg some]
    have none : padded suite.engine.blockSize body = [] :=
      List.length_eq_zero_iff.mp (by omega)
    rw [none]
    exact ⟨cipher, rfl⟩

theorem cipher_decrypts (lawful : suite.engine.Lawful) (cipherKey : Key) (body : List UInt8)
    (cipher : BlockCipher suite.engine.keyLength) :
    (BlockCipher.encrypted suite.engine cipherKey (padded suite.engine.blockSize body)).length =
      (padded suite.engine.blockSize body).length ∧
    ∃ after, (if (BlockCipher.encrypted suite.engine cipherKey
        (padded suite.engine.blockSize body)).length > 0 then
        cipher.decrypt suite.engine (BlockCipher.encrypted suite.engine cipherKey
          (padded suite.engine.blockSize body)) cipherKey
      else { output := some [], cipher }) =
        { output := some (padded suite.engine.blockSize body), cipher := after } := by
  have whole := padded_whole lawful.block_positive body
  by_cases some : (padded suite.engine.blockSize body).length > 0
  · obtain ⟨sameLength, output⟩ := BlockCipher.decrypt_output lawful _ cipherKey cipher
      (whole_precondition whole some)
    rw [if_pos (by omega)]
    exact ⟨sameLength, _, congrArg (fun result => Ciphered.mk result _) output⟩
  · have none : padded suite.engine.blockSize body = [] :=
      List.length_eq_zero_iff.mp (by omega)
    rw [none]
    exact ⟨rfl, cipher, rfl⟩

theorem encode_secures (lawful : suite.engine.Lawful)
    (coder : SecurePacketCoder suite CsPacketCoder) (block : SendBlock secureHeaderSize)
    (header : CsPacketHeader) (typeValid : isValidMessage header.messageType = true) :
    ∃ mblock cipher, coder.encode block.mblock header =
        { succeeded := true
          mblock
          header := secureHeader suite header.messageType block.body
          coder := { coder with
            cipherKeyGenerator := coder.cipherKeyGenerator.getEncryptCipherKey.2, cipher } } ∧
      mblock.contents = securePacket suite coder.cipherKeyGenerator.encryptSource.key
        header.messageType block.body := by
  obtain ⟨aligned, aligns, alignedBody⟩ := align_pads lawful coder block
  generalize drawn : coder.cipherKeyGenerator.getEncryptCipherKey = pair
  obtain ⟨cipherKey, generator⟩ := pair
  have sameKey : coder.cipherKeyGenerator.encryptSource.key = cipherKey := by
    rw [← CipherKeyGenerator.get_encrypt_key, drawn]
  obtain ⟨cipher, encrypts⟩ := cipher_encrypts lawful cipherKey block.body coder.cipher
  obtain ⟨encryptedLength, _⟩ := cipher_decrypts lawful cipherKey block.body coder.cipher
  obtain ⟨stored, storedBlock, storedBody⟩ := aligned.store_body
    (BlockCipher.encrypted suite.engine cipherKey (padded suite.engine.blockSize block.body))
    (by rw [encryptedLength, alignedBody])
  have long : ¬block.mblock.length < coder.securePacketHeaderSize := Nat.not_lt.mpr block.reserved
  have bodySize : aligned.mblock.length - coder.securePacketHeaderSize =
      (padded suite.engine.blockSize block.body).length := by
    have length := aligned.length_eq
    rw [alignedBody] at length
    change aligned.mblock.length - secureHeaderSize = _
    omega
  have body : SecurePacketCoder.bytesFrom coder.securePacketHeaderSize aligned.mblock =
      padded suite.engine.blockSize block.body := by
    rw [← alignedBody]
    exact aligned.bytes_from_header
  have headerValid : (secureHeader suite header.messageType block.body).isValid = true := by
    rw [CsPacketHeader.is_valid_eq]
    exact typeValid
  have component : PacketCoder.encode stored.mblock
      (secureHeader suite header.messageType block.body) coder.component =
        { succeeded := true
          mblock := stored.mblock.store 0
            (secureHeader suite header.messageType block.body).write
          header := secureHeader suite header.messageType block.body
          coder := coder.component } := by
    have longer : CsPacketHeader.getHeaderSize ≤ stored.mblock.length :=
      Nat.le_trans (Nat.le_add_right _ _) stored.reserved
    change PacketCoder.encodeImpl _ _ _ _ = _
    simp only [PacketCoder.encodeImpl, headerValid, Bool.true_and, decide_eq_true_eq, ge_iff_le,
      longer, if_true]
  refine ⟨(stored.mblock.store 0 (secureHeader suite header.messageType block.body).write).store
    coder.rawPacketHeaderSize (additionalHeader suite cipherKey
      (padded suite.engine.blockSize block.body)).write, cipher, ?_, ?_⟩
  · have sameStored : aligned.mblock.store coder.securePacketHeaderSize
        (BlockCipher.encrypted suite.engine cipherKey (padded suite.engine.blockSize block.body)) =
          stored.mblock := storedBlock.symm
    rw [secureHeader] at component
    simp only [SecurePacketCoder.encode, if_neg long, aligns, bodySize, drawn, body, encrypts,
      sameStored, component, if_true]
    rfl
  · have rawSize : coder.rawPacketHeaderSize =
        (secureHeader suite header.messageType block.body).write.length :=
      (CsPacketHeader.write_length _).symm
    rw [rawSize, MemoryBlock.store_store, (stored.store_contents _ (by
      rw [List.length_append, CsPacketHeader.write_length, AdditionalPacketHeader.write_length]
      rfl)).2, storedBody, sameKey, securePacket, List.append_assoc]

def plainPacket (suite : CipherSuite) (cipherKey : Key) (messageType : MessageType)
    (body : List UInt8) : List UInt8 :=
  (secureHeader suite messageType body).write ++
    ((additionalHeader suite cipherKey (padded suite.engine.blockSize body)).write ++
      padded suite.engine.blockSize body)

theorem headers_length {front : List UInt8} (plain : front.length = CsPacketHeader.getHeaderSize)
    (additional : AdditionalPacketHeader) : (front ++ additional.write).length = secureHeaderSize := by
  rw [List.length_append, plain, AdditionalPacketHeader.write_length]
  rfl

theorem plain_packet_body (coder : SecurePacketCoder suite CsPacketCoder) (cipherKey : Key)
    (messageType : MessageType) (body : List UInt8) :
    (PacketCoder.advanceToBody coder
      (packetBlock (plainPacket suite cipherKey messageType body))).contents =
        padded suite.engine.blockSize body := by
  have headers : ((secureHeader suite messageType body).write ++
      (additionalHeader suite cipherKey (padded suite.engine.blockSize body)).write).length =
        PacketCoder.getHeaderSize coder :=
    headers_length (CsPacketHeader.write_length _) _
  rw [packet_body, plainPacket, ← List.append_assoc, List.drop_left' headers]

theorem secure_packet_length (lawful : suite.engine.Lawful) (cipherKey : Key)
    (messageType : MessageType) (body : List UInt8) :
    (securePacket suite cipherKey messageType body).length =
      secureHeaderSize + (padded suite.engine.blockSize body).length := by
  obtain ⟨encryptedLength, _⟩ := cipher_decrypts lawful cipherKey body .create
  rw [securePacket, List.length_append, List.length_append, CsPacketHeader.write_length,
    AdditionalPacketHeader.write_length, encryptedLength, ← Nat.add_assoc]
  rfl

theorem read_additional_header {front : List UInt8} (plain : front.length = CsPacketHeader.getHeaderSize)
    (additional : AdditionalPacketHeader) (rest : List UInt8) :
    AdditionalPacketHeader.read ((packetBlock (front ++ (additional.write ++ rest))).buffer.drop
      CsPacketHeader.getHeaderSize) = additional := by
  have dropped : (packetBlock (front ++ (additional.write ++ rest))).buffer.drop
      CsPacketHeader.getHeaderSize = additional.write ++ rest :=
    List.drop_left' plain
  rw [dropped, AdditionalPacketHeader.read_write]

/-- A receiver whose next key has another fingerprint refuses the packet. -/
theorem decode_refuses (coder : SecurePacketCoder suite CsPacketCoder) (messageType : MessageType)
    (body : List UInt8) (cipherKey : Key)
    (differs : getFingerPrint coder.cipherKeyGenerator.decryptSource.key ≠ getFingerPrint cipherKey) :
    (coder.decode (packetBlock (securePacket suite cipherKey messageType body))).succeeded = false := by
  have component : PacketCoder.decode
      (packetBlock (securePacket suite cipherKey messageType body)) coder.component =
        { succeeded := true
          mblock := packetBlock (securePacket suite cipherKey messageType body)
          coder := coder.component } := rfl
  have additional : AdditionalPacketHeader.read ((packetBlock (securePacket suite cipherKey messageType
      body)).buffer.drop CsPacketHeader.getHeaderSize) =
        additionalHeader suite cipherKey (padded suite.engine.blockSize body) :=
    read_additional_header (CsPacketHeader.write_length _) _ _
  have other : getFingerPrint coder.cipherKeyGenerator.getDecryptCipherKey.1 ≠
      (additionalHeader suite cipherKey (padded suite.engine.blockSize body)).fingerPrint := by
    rw [CipherKeyGenerator.get_decrypt_key]
    exact differs
  simp only [SecurePacketCoder.decode, component, if_true, raw_header_size_eq, additional, if_pos other]

theorem bytes_from_headers {front : List UInt8} (plain : front.length = CsPacketHeader.getHeaderSize)
    (additional : AdditionalPacketHeader) (rest : List UInt8) :
    SecurePacketCoder.bytesFrom secureHeaderSize
      (packetBlock (front ++ (additional.write ++ rest))) = rest := by
  simp only [SecurePacketCoder.bytesFrom, packetBlock, List.take_length]
  rw [← List.append_assoc, List.drop_left' (headers_length plain additional)]

theorem store_behind_headers {front : List UInt8} (plain : front.length = CsPacketHeader.getHeaderSize)
    (additional : AdditionalPacketHeader) {rest bytes : List UInt8} (same : bytes.length = rest.length) :
    (packetBlock (front ++ (additional.write ++ rest))).store secureHeaderSize bytes =
      packetBlock (front ++ (additional.write ++ bytes)) := by
  have headers := headers_length plain additional
  have kept : (front ++ (additional.write ++ rest)).take secureHeaderSize = front ++ additional.write := by
    rw [← List.append_assoc, List.take_left' headers]
  have nothing : (front ++ (additional.write ++ rest)).drop (secureHeaderSize + bytes.length) = [] := by
    apply List.drop_of_length_le
    rw [← List.append_assoc, List.length_append, headers, same]
  have lengths : (front ++ (additional.write ++ rest)).length =
      (front ++ (additional.write ++ bytes)).length := by
    simp only [List.length_append, same]
  simp only [MemoryBlock.store, packetBlock, kept, nothing, List.append_nil, lengths]
  rw [List.append_assoc]

/-- A packet with the fingerprint of the receiver's next key is opened with that key. What the
checksum says of the body decides. -/
theorem decode_opens (lawful : suite.engine.Lawful) (coder : SecurePacketCoder suite CsPacketCoder)
    {front : List UInt8} (plain : front.length = CsPacketHeader.getHeaderSize)
    (additional : AdditionalPacketHeader) (body : List UInt8) (cipherKey : Key)
    (agrees : coder.cipherKeyGenerator.decryptSource.key = cipherKey)
    (samePrint : additional.fingerPrint = getFingerPrint cipherKey) :
    ∃ cipher, coder.decode (packetBlock (front ++ (additional.write ++
        BlockCipher.encrypted suite.engine cipherKey (padded suite.engine.blockSize body)))) =
      { succeeded := getCheckSum suite (padded suite.engine.blockSize body) (getFingerPrint cipherKey) ==
          additional.checkSum
        mblock := packetBlock (front ++ (additional.write ++ padded suite.engine.blockSize body))
        coder := { coder with
          cipherKeyGenerator := coder.cipherKeyGenerator.getDecryptCipherKey.2, cipher } } := by
  generalize drawn : coder.cipherKeyGenerator.getDecryptCipherKey = pair
  obtain ⟨drawnKey, generator⟩ := pair
  have sameKey : drawnKey = cipherKey := by
    rw [← agrees, ← CipherKeyGenerator.get_decrypt_key, drawn]
  subst sameKey
  obtain ⟨encryptedLength, cipher, decrypts⟩ := cipher_decrypts lawful drawnKey body coder.cipher
  have component : PacketCoder.decode (packetBlock (front ++ (additional.write ++
      BlockCipher.encrypted suite.engine drawnKey (padded suite.engine.blockSize body)))) coder.component =
        { succeeded := true
          mblock := packetBlock (front ++ (additional.write ++
            BlockCipher.encrypted suite.engine drawnKey (padded suite.engine.blockSize body)))
          coder := coder.component } := rfl
  refine ⟨cipher, ?_⟩
  simp only [SecurePacketCoder.decode, component, if_true, drawn, secure_header_size_eq,
    raw_header_size_eq, read_additional_header plain, samePrint, ne_eq, not_true_eq_false, if_false,
    bytes_from_headers plain, decrypts, store_behind_headers plain additional encryptedLength.symm]

theorem decode_restores (lawful : suite.engine.Lawful)
    (coder : SecurePacketCoder suite CsPacketCoder) (messageType : MessageType)
    (body : List UInt8) (cipherKey : Key)
    (agrees : coder.cipherKeyGenerator.decryptSource.key = cipherKey) :
    ∃ cipher, coder.decode (packetBlock (securePacket suite cipherKey messageType body)) =
      { succeeded := true
        mblock := packetBlock (plainPacket suite cipherKey messageType body)
        coder := { coder with
          cipherKeyGenerator := coder.cipherKeyGenerator.getDecryptCipherKey.2, cipher } } := by
  obtain ⟨cipher, decodes⟩ := decode_opens lawful coder
    (CsPacketHeader.write_length (secureHeader suite messageType body))
    (additionalHeader suite cipherKey (padded suite.engine.blockSize body)) body cipherKey agrees rfl
  refine ⟨cipher, ?_⟩
  rw [securePacket, decodes, plainPacket]
  simp only [additionalHeader, beq_self_eq_true]

/-- The sender's next keys are the keys that the receiver expects. -/
def InStep (sender receiver : SecurePacketCoder suite CsPacketCoder) : Prop :=
  sender.cipherKeyGenerator.encryptSource = receiver.cipherKeyGenerator.decryptSource

theorem InStep.advance {sender receiver : SecurePacketCoder suite CsPacketCoder}
    (inStep : InStep sender receiver)
    (encryptCipher decryptCipher : BlockCipher suite.engine.keyLength) :
    InStep
      { sender with
        cipherKeyGenerator := sender.cipherKeyGenerator.getEncryptCipherKey.2
        cipher := encryptCipher }
      { receiver with
        cipherKeyGenerator := receiver.cipherKeyGenerator.getDecryptCipherKey.2
        cipher := decryptCipher } := by
  simp only [InStep, CipherKeyGenerator.get_encrypt_encryptSource,
    CipherKeyGenerator.get_decrypt_decryptSource]
  rw [inStep]

/-- The two ways in which the seeds of a direction come to agree. -/
inductive Agreed : SecurePacketCoder suite CsPacketCoder → SecurePacketCoder suite CsPacketCoder → Prop
  | initially (useDynamicKey : Bool) (senderPeriod receiverPeriod : Nat) :
      Agreed (.create {} senderPeriod useDynamicKey) (.create {} receiverPeriod useDynamicKey)
  | exchanged (seed : Seed) (sender receiver : SecurePacketCoder suite CsPacketCoder) :
      sender.cipherKeyGenerator.isDynamic = receiver.cipherKeyGenerator.isDynamic →
      Agreed (sender.setEncryptSeed seed) (receiver.setDecryptSeed seed)

theorem Agreed.in_step {sender receiver : SecurePacketCoder suite CsPacketCoder}
    (agreed : Agreed sender receiver) : InStep sender receiver := by
  cases agreed with
  | initially useDynamicKey senderPeriod receiverPeriod =>
      exact CipherKeyGenerator.create_sources useDynamicKey
  | exchanged seed sender receiver sameKind =>
      simp only [InStep, SecurePacketCoder.setEncryptSeed, SecurePacketCoder.setDecryptSeed,
        CipherKeyGenerator.set_encrypt_encryptSource, CipherKeyGenerator.set_decrypt_decryptSource,
        sameKind]

/-- Each message is encoded by the sender and its packet decoded by the receiver,
one after another. Every packet is accepted, carries its own length and gives the
body back, and leaves the generators in step. -/
def LockStep : List (Outgoing secureHeaderSize) → SecurePacketCoder suite CsPacketCoder →
    SecurePacketCoder suite CsPacketCoder → Prop
  | [], _, _ => True
  | outgoing :: rest, sender, receiver =>
      let encoded := sender.encode outgoing.mblock
        { bodySize := PacketCoder.getBodySize sender outgoing.mblock
          messageType := outgoing.messageType }
      let decoded := receiver.decode (packetBlock encoded.mblock.contents)
      encoded.succeeded = true ∧
      encoded.mblock.contents.length = secureHeaderSize + encoded.header.bodySize.toNat ∧
      decoded.succeeded = true ∧
      (∃ zeros, zeros < suite.engine.blockSize ∧
        (PacketCoder.advanceToBody decoded.coder decoded.mblock).contents =
          outgoing.body ++ List.replicate zeros 0) ∧
      InStep encoded.coder decoded.coder ∧
      LockStep rest encoded.coder decoded.coder

theorem in_step_lock_step (lawful : suite.engine.Lawful)
    (messages : List (Outgoing secureHeaderSize))
    (fits : ∀ outgoing ∈ messages, (padded suite.engine.blockSize outgoing.body).length ≤ 65535)
    (sender receiver : SecurePacketCoder suite CsPacketCoder) (inStep : InStep sender receiver) :
    LockStep messages sender receiver := by
  induction messages generalizing sender receiver with
  | nil => trivial
  | cons outgoing rest induction =>
      obtain ⟨mblock, encryptCipher, encodes, contents⟩ := encode_secures lawful sender
        outgoing.toSendBlock { bodySize := PacketCoder.getBodySize sender outgoing.mblock
                               messageType := outgoing.messageType } outgoing.typeValid
      have sameKey : receiver.cipherKeyGenerator.decryptSource.key =
          sender.cipherKeyGenerator.encryptSource.key := by
        rw [inStep]
      obtain ⟨decryptCipher, decodes⟩ := decode_restores lawful receiver outgoing.messageType
        outgoing.body _ sameKey
      rw [← contents] at decodes
      have small := fits outgoing (List.mem_cons_self ..)
      simp only [LockStep, encodes, decodes]
      refine ⟨trivial, ?_, trivial, ⟨fill suite.engine.blockSize outgoing.body.length,
        fill_lt lawful.block_positive _, ?_⟩, ?_, ?_⟩
      · rw [contents, secure_packet_length lawful]
        simp only [secureHeader, UInt16.toNat_ofNat']
        omega
      · rw [plain_packet_body, padded]
      · exact inStep.advance _ _
      · apply induction
        · exact fun other member => fits other (List.mem_cons_of_mem _ member)
        · exact inStep.advance _ _

/-- Coders whose seeds agree stay in lock step over any number of messages. -/
theorem secure_coders_lock_step (lawful : suite.engine.Lawful)
    (sender receiver : SecurePacketCoder suite CsPacketCoder) (agreed : Agreed sender receiver)
    (messages : List (Outgoing secureHeaderSize))
    (fits : ∀ outgoing ∈ messages, (padded suite.engine.blockSize outgoing.body).length ≤ 65535) :
    LockStep messages sender receiver :=
  in_step_lock_step lawful messages fits sender receiver agreed.in_step

end Coder

theorem secure_coders_lock_step_exchanged :
    let fresh : SecurePacketCoder teaSuite CsPacketCoder := .create {} 1000 true
    let marshaller := SgpMarshaller.create fresh (MemoryBlock.create 16) (MemoryBlock.create 16)
    LockStep [
      { toSendBlock := marshaller.sendBlock (MemoryBlock.create 16) (by decide) [1, 2, 3]
        messageType := csmtRpc
        typeValid := by decide },
      { toSendBlock := marshaller.sendBlock (MemoryBlock.create 16) (by decide) []
        messageType := csmtSystemHeartbeat
        typeValid := by decide }]
      (fresh.setEncryptSeed [49, 55]) (fresh.setDecryptSeed [49, 55]) := by
  intro fresh marshaller
  apply secure_coders_lock_step tea_suite_lawful
  · exact .exchanged [49, 55] fresh fresh rfl
  · decide

end Sne.Sgp
