import Sne.Library.Crc
import Sne.Sgp.SecureRoundTrip

/-!
# What the checksum of a secure packet says

The checksum of the header is the CRC-32 of the plain body with the bits of the fingerprint
set. Bits that the fingerprint sets are the same for every body. CRC-32 takes every value on
the bodies of a length, so that a replaced body can differ in just those bits.
-/

namespace Sne.Sgp

open Sne.Base Sne.Security Sne.Library

set_option autoImplicit false

def crcPolynomial : BitVec 32 := 0xEDB88320#32

theorem low_bit_iff (crc : UInt32) : crc &&& 1 = 1 ↔ crc.toBitVec.getLsbD 0 = true := by
  rw [← UInt32.toNat_inj, UInt32.toNat_and, BitVec.getLsbD, UInt32.toNat_toBitVec, Nat.testBit_zero,
    decide_eq_true_eq, ← Nat.and_one_is_mod]
  rfl

theorem crc_steps (count : Nat) (crc : UInt32) :
    ((List.range count).foldl
      (fun (crc : UInt32) _ =>
        if crc &&& 1 = 1 then (crc >>> 1) ^^^ 0xEDB88320 else crc >>> 1) crc).toBitVec =
        Crc.steps crcPolynomial count crc.toBitVec := by
  induction count with
  | zero => rfl
  | succ count induction =>
      rw [List.range_succ, List.foldl_append, Crc.steps_add, ← induction]
      generalize (List.range count).foldl _ crc = reached
      change (if reached &&& 1 = 1 then (reached >>> 1) ^^^ 0xEDB88320 else reached >>> 1).toBitVec =
        Crc.step crcPolynomial reached.toBitVec
      unfold Crc.step
      by_cases odd : reached &&& 1 = 1
      · rw [if_pos odd, if_pos ((low_bit_iff reached).mp odd)]
        rfl
      · rw [if_neg odd, if_neg (fun set => odd ((low_bit_iff reached).mpr set))]
        rfl

theorem crc_byte_feeds (crc : UInt32) (byte : UInt8) :
    (crcByte crc byte).toBitVec = Crc.feed crcPolynomial crc.toBitVec byte := by
  unfold crcByte Crc.feed
  rw [crc_steps]
  rfl

theorem crc_bytes_feed (bytes : List UInt8) (crc : UInt32) :
    (bytes.foldl crcByte crc).toBitVec = bytes.foldl (Crc.feed crcPolynomial) crc.toBitVec := by
  induction bytes generalizing crc with
  | nil => rfl
  | cons byte rest induction =>
      rw [List.foldl_cons, List.foldl_cons, induction, crc_byte_feeds]

/-- Every sum is that of a body of any length from four bytes on. -/
theorem crc32_onto {count : Nat} (long : 4 ≤ count) (target : UInt32) :
    ∃ bytes : List UInt8, bytes.length = count ∧ crc32 bytes = target := by
  have top : crcPolynomial.msb = true := by decide
  rcases Crc.feed_onto top (show 8 * 4 = 32 from rfl)
    ((List.replicate (count - 4) 0).foldl crcByte 0xFFFFFFFF).toBitVec
    (target ^^^ 0xFFFFFFFF).toBitVec with ⟨last, length, reached⟩
  refine ⟨List.replicate (count - 4) 0 ++ last, ?_, ?_⟩
  · rw [List.length_append, List.length_replicate, length]
    omega
  · rw [← crc_bytes_feed] at reached
    rw [crc32, List.foldl_append, UInt32.toBitVec_inj.mp reached, UInt32.xor_assoc, UInt32.xor_self,
      UInt32.xor_zero]

section Coder

variable {suite : CipherSuite}

theorem accepted_check_sum (coder : SecurePacketCoder suite CsPacketCoder) {front : List UInt8}
    (plain : front.length = CsPacketHeader.getHeaderSize) (additional : AdditionalPacketHeader)
    (rest : List UInt8)
    (accepted : (coder.decode (packetBlock (front ++ (additional.write ++ rest)))).succeeded = true) :
    getCheckSum suite (SecurePacketCoder.bytesFrom secureHeaderSize
      (coder.decode (packetBlock (front ++ (additional.write ++ rest)))).mblock)
      (getFingerPrint coder.cipherKeyGenerator.decryptSource.key) = additional.checkSum := by
  have component : PacketCoder.decode (packetBlock (front ++ (additional.write ++ rest))) coder.component =
      { succeeded := true
        mblock := packetBlock (front ++ (additional.write ++ rest))
        coder := coder.component } := rfl
  rw [← CipherKeyGenerator.get_decrypt_key]
  revert accepted
  simp only [SecurePacketCoder.decode, component, if_true, secure_header_size_eq, raw_header_size_eq,
    read_additional_header plain]
  split
  · intro refused
    cases refused
  · split
    · intro refused
      cases refused
    · intro same
      exact eq_of_beq same

def replaceBody (packet replacement : List UInt8) : List UInt8 :=
  packet.take secureHeaderSize ++ replacement

theorem replace_secure_body (cipherKey : Key) (messageType : MessageType)
    (body replacement : List UInt8) :
    replaceBody (securePacket suite cipherKey messageType body) replacement =
      (secureHeader suite messageType body).write ++
        ((additionalHeader suite cipherKey (padded suite.engine.blockSize body)).write ++ replacement) := by
  have headers := headers_length (CsPacketHeader.write_length (secureHeader suite messageType body))
    (additionalHeader suite cipherKey (padded suite.engine.blockSize body))
  rw [replaceBody, securePacket, ← List.append_assoc, List.take_left' headers, List.append_assoc]

/-- The CRC-32 of every accepted replacement of the body is that of the body. -/
def PinsCrc (suite : CipherSuite) (receiver : SecurePacketCoder suite CsPacketCoder)
    (packet plainBody : List UInt8) : Prop :=
  ∀ replacement, replacement.length + secureHeaderSize = packet.length →
    (receiver.decode (packetBlock (replaceBody packet replacement))).succeeded = true →
    suite.crc32 (SecurePacketCoder.bytesFrom secureHeaderSize
      (receiver.decode (packetBlock (replaceBody packet replacement))).mblock) = suite.crc32 plainBody

theorem pins_without_finger_print (receiver : SecurePacketCoder suite CsPacketCoder)
    (messageType : MessageType) (body : List UInt8) (cipherKey : Key)
    (matching : receiver.cipherKeyGenerator.decryptSource.key = cipherKey)
    (nothing : getFingerPrint cipherKey = 0) :
    PinsCrc suite receiver (securePacket suite cipherKey messageType body)
      (padded suite.engine.blockSize body) := by
  intro replacement _ accepted
  rw [replace_secure_body] at accepted ⊢
  have sums := accepted_check_sum receiver (CsPacketHeader.write_length _) _ _ accepted
  have sent : (additionalHeader suite cipherKey (padded suite.engine.blockSize body)).checkSum =
      suite.crc32 (padded suite.engine.blockSize body) := by
    simp [additionalHeader, getCheckSum, nothing]
  rw [matching, nothing, sent] at sums
  simpa [getCheckSum] using sums

theorem padded_of_whole {blockSize : Nat} {body : List UInt8} (whole : body.length % blockSize = 0) :
    padded blockSize body = body := by
  rw [padded, fill, whole, Nat.sub_zero, Nat.mod_self, List.replicate_zero, List.append_nil]

/-- A body of whole blocks with the same checksum is taken for the body that was sent. -/
theorem replaced_accepted (lawful : suite.engine.Lawful)
    (receiver : SecurePacketCoder suite CsPacketCoder)
    (messageType : MessageType) (body : List UInt8) (cipherKey : Key)
    (matching : receiver.cipherKeyGenerator.decryptSource.key = cipherKey) {other : List UInt8}
    (whole : other.length % suite.engine.blockSize = 0)
    (sameSum : getCheckSum suite other (getFingerPrint cipherKey) =
      getCheckSum suite (padded suite.engine.blockSize body) (getFingerPrint cipherKey)) :
    (receiver.decode (packetBlock (replaceBody (securePacket suite cipherKey messageType body)
      (BlockCipher.encrypted suite.engine cipherKey other)))).succeeded = true ∧
    SecurePacketCoder.bytesFrom secureHeaderSize (receiver.decode (packetBlock (replaceBody
      (securePacket suite cipherKey messageType body)
      (BlockCipher.encrypted suite.engine cipherKey other)))).mblock = other := by
  rcases decode_opens lawful receiver (CsPacketHeader.write_length (secureHeader suite messageType body))
    (additionalHeader suite cipherKey (padded suite.engine.blockSize body)) other cipherKey matching rfl with
    ⟨cipher, decodes⟩
  rw [padded_of_whole whole] at decodes
  rw [replace_secure_body, decodes]
  constructor
  · simp only [additionalHeader, sameSum, beq_self_eq_true]
  · exact bytes_from_headers (CsPacketHeader.write_length _) _ _

theorem pins_empty_body (lawful : suite.engine.Lawful) (receiver : SecurePacketCoder suite CsPacketCoder)
    (messageType : MessageType) (cipherKey : Key)
    (matching : receiver.cipherKeyGenerator.decryptSource.key = cipherKey) :
    PinsCrc suite receiver (securePacket suite cipherKey messageType [])
      (padded suite.engine.blockSize []) := by
  have empty : padded suite.engine.blockSize [] = [] := padded_of_whole (Nat.zero_mod _)
  intro replacement same _
  rw [secure_packet_length lawful, empty, List.length_nil] at same
  have none : replacement = BlockCipher.encrypted suite.engine cipherKey [] :=
    List.length_eq_zero_iff.mp (by omega)
  have whole : ([] : List UInt8).length % suite.engine.blockSize = 0 := Nat.zero_mod _
  have opened := replaced_accepted lawful receiver messageType [] cipherKey matching whole (by rw [empty])
  rw [none, opened.2, empty]

/-- Another sum that differs from the first one only in bits of the fingerprint. -/
theorem other_sum (sum finger : UInt32) (some : finger ≠ 0) :
    sum ^^^ finger ≠ sum ∧ (sum ^^^ finger) ||| finger = sum ||| finger := by
  constructor
  · intro same
    have cancelled : sum ^^^ (sum ^^^ finger) = sum ^^^ sum := by rw [same]
    rw [← UInt32.xor_assoc, UInt32.xor_self, UInt32.zero_xor] at cancelled
    exact some cancelled
  · apply UInt32.toBitVec_inj.mp
    apply BitVec.eq_of_getLsbD_eq
    intro index _
    rw [UInt32.toBitVec_or, UInt32.toBitVec_or, UInt32.toBitVec_xor, BitVec.getLsbD_or, BitVec.getLsbD_or,
      BitVec.getLsbD_xor]
    cases sum.toBitVec.getLsbD index with
    | false => cases finger.toBitVec.getLsbD index <;> rfl
    | true => cases finger.toBitVec.getLsbD index <;> rfl

theorem finger_wide {finger : FingerPrint} (some : finger ≠ 0) : finger.toUInt32 ≠ 0 := by
  intro zero
  apply some
  apply UInt16.toNat_inj.mp
  rw [← UInt16.toNat_toUInt32, zero]
  rfl

/-- A packet with a body and a fingerprint can be given a body of another sum. -/
theorem unpinned (lawful : suite.engine.Lawful) (published : suite.crc32 = crc32)
    (receiver : SecurePacketCoder suite CsPacketCoder) (messageType : MessageType) {body : List UInt8}
    (cipherKey : Key) (matching : receiver.cipherKeyGenerator.decryptSource.key = cipherKey)
    (print : getFingerPrint cipherKey ≠ 0) (some : body ≠ []) :
    ¬PinsCrc suite receiver (securePacket suite cipherKey messageType body)
      (padded suite.engine.blockSize body) := by
  have whole := padded_whole lawful.block_positive body
  have long : 4 ≤ (padded suite.engine.blockSize body).length := by
    have nonempty : 0 < body.length := List.length_pos_of_ne_nil some
    have length := padded_length suite.engine.blockSize body
    have blocks : suite.engine.blockSize ≤ (padded suite.engine.blockSize body).length :=
      Nat.le_of_dvd (by omega) (Nat.dvd_of_mod_eq_zero whole)
    rcases lawful.sizes with eight | sixteen
    · omega
    · omega
  rcases other_sum (crc32 (padded suite.engine.blockSize body)) _ (finger_wide print) with ⟨differs, same⟩
  rcases crc32_onto long (crc32 (padded suite.engine.blockSize body) ^^^
    (getFingerPrint cipherKey).toUInt32) with ⟨other, length, sum⟩
  have otherWhole : other.length % suite.engine.blockSize = 0 := by
    rw [length]
    exact whole
  have sameSum : getCheckSum suite other (getFingerPrint cipherKey) =
      getCheckSum suite (padded suite.engine.blockSize body) (getFingerPrint cipherKey) := by
    rw [getCheckSum, getCheckSum, published, sum, same]
  rcases replaced_accepted lawful receiver messageType body cipherKey matching otherWhole sameSum with
    ⟨accepted, opened⟩
  have encryptedLength := (cipher_decrypts lawful cipherKey other receiver.cipher).1
  rw [padded_of_whole otherWhole] at encryptedLength
  intro pins
  have pinned := pins (BlockCipher.encrypted suite.engine cipherKey other) (by
    rw [secure_packet_length lawful, encryptedLength, length, Nat.add_comm]) accepted
  rw [opened, published, sum] at pinned
  exact differs pinned

/-- The CRC-32 of the sender's body is that of every body that is accepted in its place,
exactly when the key has no fingerprint or the body is empty. -/
theorem accepted_crc_iff (lawful : suite.engine.Lawful) (published : suite.crc32 = crc32)
    (sender receiver : SecurePacketCoder suite CsPacketCoder)
    (matching : receiver.cipherKeyGenerator.decryptSource.key = sender.cipherKeyGenerator.encryptSource.key)
    (block : SendBlock secureHeaderSize) (header : CsPacketHeader)
    (typeValid : isValidMessage header.messageType = true) :
    PinsCrc suite receiver (sender.encode block.mblock header).mblock.contents
        (padded suite.engine.blockSize block.body) ↔
      getFingerPrint sender.cipherKeyGenerator.encryptSource.key = 0 ∨ block.body = [] := by
  rcases encode_secures lawful sender block header typeValid with ⟨mblock, cipher, encodes, contents⟩
  rw [encodes, contents]
  constructor
  · intro pins
    by_contra neither
    rw [not_or] at neither
    exact unpinned lawful published receiver header.messageType _ matching neither.1 neither.2 pins
  · rintro (nothing | empty)
    · exact pins_without_finger_print receiver _ _ _ matching nothing
    · rw [empty]
      exact pins_empty_body lawful receiver _ _ matching

end Coder

def staticCoder : SecurePacketCoder teaSuite CsPacketCoder := .create {} 1000 false

theorem static_coder_roomy : PacketCoder.getHeaderSize staticCoder ≤ (MemoryBlock.create 16).capacity := by
  decide

def blockOf (body : List UInt8) : SendBlock secureHeaderSize :=
  (SgpMarshaller.create staticCoder (MemoryBlock.create 16) (MemoryBlock.create 16)).sendBlock
    (MemoryBlock.create 16) static_coder_roomy body

theorem accepted_crc_seed_zero :
    PinsCrc teaSuite (staticCoder.setDecryptSeed [48])
      ((staticCoder.setEncryptSeed [48]).encode (blockOf [1, 2, 3]).mblock
        { bodySize := 0, messageType := csmtRpc }).mblock.contents
      (padded teaSuite.engine.blockSize (blockOf [1, 2, 3]).body) :=
  (accepted_crc_iff tea_suite_lawful rfl (staticCoder.setEncryptSeed [48])
    (staticCoder.setDecryptSeed [48]) rfl (blockOf [1, 2, 3])
    { bodySize := 0, messageType := csmtRpc } (by decide)).mpr (.inl (by decide +kernel))

/-- Eight zero bytes under the key that both sides begin with, whose fingerprint is 0x8018.
The replacement is the cipher text of another body, and its sum lacks the bit 3. -/
theorem crc_not_pinned :
    ¬PinsCrc teaSuite staticCoder
      (staticCoder.encode (blockOf (List.replicate 8 0)).mblock
        { bodySize := 0, messageType := csmtRpc }).mblock.contents
      (padded teaSuite.engine.blockSize (blockOf (List.replicate 8 0)).body) := by
  intro pins
  have pinned := pins [0x13, 0x67, 0xd2, 0x90, 0xdc, 0xc3, 0xd6, 0x14] (by decide +kernel)
    (by decide +kernel)
  exact absurd pinned (by decide +kernel)

end Sne.Sgp
