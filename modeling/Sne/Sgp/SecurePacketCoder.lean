import Sne.Sgp.CipherKeyGenerator

/-!
# The secure packet coder

`SecurePacketCoder.cpp`. The coder pads the body to whole cipher blocks, encrypts
it in place and puts a fingerprint of the key and a checksum of the plain body
behind the header of the coder it decorates. The checksum is `boost::crc_32_type`,
a parameter here like the cipher engine and the random numbers.
-/

namespace Sne.Sgp

open Sne.Base Sne.Security Sne.Library.Endian

set_option autoImplicit false

/-- The third-party functions the coder uses. -/
structure CipherSuite where
  engine : Engine
  random : Rand48
  crc32 : List UInt8 → UInt32

abbrev FingerPrint := UInt16
abbrev CheckSum := UInt32

def getFingerPrint (cipherKey : Key) : FingerPrint := (cipherKey >>> 5).toUInt16

def getCheckSum (suite : CipherSuite) (body : List UInt8) (fingerPrint : FingerPrint) : CheckSum :=
  suite.crc32 body ||| fingerPrint.toUInt32

structure AdditionalPacketHeader where
  fingerPrint : FingerPrint
  checkSum : CheckSum
  deriving DecidableEq, Repr

namespace AdditionalPacketHeader

def headerSize : Nat := 2 + 4

def write (header : AdditionalPacketHeader) : List UInt8 :=
  littleEndian 2 header.fingerPrint.toNat ++ littleEndian 4 header.checkSum.toNat

def read (bytes : List UInt8) : AdditionalPacketHeader :=
  { fingerPrint := UInt16.ofNat (ofLittleEndian (bytes.take 2))
    checkSum := UInt32.ofNat (ofLittleEndian ((bytes.drop 2).take 4)) }

@[simp] theorem write_length (header : AdditionalPacketHeader) : header.write.length = headerSize := by
  simp [write, headerSize]

theorem read_write (header : AdditionalPacketHeader) (rest : List UInt8) :
    read (header.write ++ rest) = header := by
  obtain ⟨fingerPrint, checkSum⟩ := header
  have printBound := fingerPrint.toNat_lt
  have sumBound := checkSum.toNat_lt
  have print : UInt16.ofNat (fingerPrint.toNat % 256 ^ 2) = fingerPrint := by
    apply UInt16.toNat_inj.mp
    rw [UInt16.toNat_ofNat']
    omega
  have sum : UInt32.ofNat (checkSum.toNat % 256 ^ 4) = checkSum := by
    apply UInt32.toNat_inj.mp
    rw [UInt32.toNat_ofNat']
    omega
  rw [read, write, List.append_assoc, List.take_left' (little_endian_length _ _),
    List.drop_left' (little_endian_length _ _), List.take_left' (little_endian_length _ _),
    of_little_endian_little_endian, of_little_endian_little_endian, print, sum]

end AdditionalPacketHeader

structure SecurePacketCoder (suite : CipherSuite) (κ : Type) where
  component : κ
  cipherKeyGenerator : CipherKeyGenerator suite.random
  cipher : BlockCipher suite.engine.keyLength
  cipherKeyPeriod : Nat
  cipherKeyTimeLimit : TimePoint := 0

def nanosecondsPerMillisecond : Nat := 1000000

namespace SecurePacketCoder

variable {suite : CipherSuite} {κ : Type} [PacketCoder κ]

def create (component : κ) (cipherKeyPeriod : Nat) (useDynamicKey : Bool) :
    SecurePacketCoder suite κ :=
  { component
    cipherKeyGenerator := .create useDynamicKey
    cipher := .create
    cipherKeyPeriod }

def rawPacketHeaderSize (coder : SecurePacketCoder suite κ) : Nat :=
  PacketCoder.getHeaderSize coder.component

def securePacketHeaderSize (coder : SecurePacketCoder suite κ) : Nat :=
  coder.rawPacketHeaderSize + AdditionalPacketHeader.headerSize

def extendCipherKeyTimeLimit (now : TimePoint) (coder : SecurePacketCoder suite κ) :
    SecurePacketCoder suite κ :=
  { coder with
    cipherKeyTimeLimit := now + coder.cipherKeyPeriod * nanosecondsPerMillisecond }

-- `cases` keeps the kernel from comparing the time limits, which counts nanoseconds.
omit [PacketCoder κ] in
@[simp] theorem extend_cipherKeyPeriod (now : TimePoint) (coder : SecurePacketCoder suite κ) :
    (coder.extendCipherKeyTimeLimit now).cipherKeyPeriod = coder.cipherKeyPeriod := by
  cases coder
  rfl

omit [PacketCoder κ] in
@[simp] theorem extend_cipherKeyGenerator (now : TimePoint) (coder : SecurePacketCoder suite κ) :
    (coder.extendCipherKeyTimeLimit now).cipherKeyGenerator = coder.cipherKeyGenerator := by
  cases coder
  rfl

def shouldExchangeCipherSeed (coder : SecurePacketCoder suite κ) : Bool :=
  decide (coder.cipherKeyPeriod > 0)

def isCipherKeyExpired (now : TimePoint) (coder : SecurePacketCoder suite κ) : Bool :=
  coder.shouldExchangeCipherSeed && decide (now ≥ coder.cipherKeyTimeLimit)

def reset (now : TimePoint) (coder : SecurePacketCoder suite κ) : SecurePacketCoder suite κ :=
  extendCipherKeyTimeLimit now { coder with
    component := PacketCoder.reset now coder.component
    cipherKeyGenerator := coder.cipherKeyGenerator.reset }

/-- The two seeds that the generator seeded with `clock()` gives. -/
def generateCipherSeed (suite : CipherSuite) (clock : UInt32) : Seed × Seed :=
  let generator := suite.random.seed clock
  let (encryptSeed, generator) := suite.random.next generator
  let (decryptSeed, _) := suite.random.next generator
  (formatDecimal encryptSeed, formatDecimal decryptSeed)

def setEncryptSeed (seed : Seed) (coder : SecurePacketCoder suite κ) : SecurePacketCoder suite κ :=
  { coder with
    cipherKeyGenerator := coder.cipherKeyGenerator.setEncryptCipherKey (toCipherKey seed) }

def setDecryptSeed (seed : Seed) (coder : SecurePacketCoder suite κ) : SecurePacketCoder suite κ :=
  { coder with
    cipherKeyGenerator := coder.cipherKeyGenerator.setDecryptCipherKey (toCipherKey seed) }

/-- Zero bytes behind the body, up to a whole number of cipher blocks. -/
def align (buffer : MemoryBlock) (coder : SecurePacketCoder suite κ) : MemoryBlock :=
  if suite.engine.blockSize ≤ 0 then
    buffer
  else
    let bodySize := buffer.length - coder.securePacketHeaderSize
    let mod := bodySize % suite.engine.blockSize
    if mod > 0 then
      let delta := suite.engine.blockSize - mod
      let buffer := buffer.reserve delta
      (buffer.store buffer.wrPtr (List.replicate delta 0)).advanceWrPtr delta
    else
      buffer

/-- The bytes from `base() + offset` to the write position. -/
def bytesFrom (offset : Nat) (mblock : MemoryBlock) : List UInt8 :=
  (mblock.buffer.take mblock.wrPtr).drop offset

def encode (mblock : MemoryBlock) (header : CsPacketHeader) (coder : SecurePacketCoder suite κ) :
    Encoded (SecurePacketCoder suite κ) :=
  let headerSize := coder.securePacketHeaderSize
  if mblock.length < headerSize then
    { succeeded := false, mblock, header, coder }
  else
    let mblock := coder.align mblock
    let header := { header with bodySize := UInt16.ofNat (mblock.length - headerSize) }
    let (cipherKey, cipherKeyGenerator) := coder.cipherKeyGenerator.getEncryptCipherKey
    let coder := { coder with cipherKeyGenerator }
    let fingerPrint := getFingerPrint cipherKey
    let body := bytesFrom headerSize mblock
    let checkSum := getCheckSum suite body fingerPrint
    let ciphered := if body.length > 0 then coder.cipher.encrypt suite.engine body cipherKey
      else { output := some [], cipher := coder.cipher }
    let coder := { coder with cipher := ciphered.cipher }
    match ciphered.output with
    | none => { succeeded := false, mblock, header, coder }
    | some output =>
        let encoded := PacketCoder.encode (mblock.store headerSize output) header coder.component
        let coder := { coder with component := encoded.coder }
        if encoded.succeeded then
          { succeeded := true
            mblock := encoded.mblock.store coder.rawPacketHeaderSize
              (AdditionalPacketHeader.write { fingerPrint, checkSum })
            header := encoded.header
            coder }
        else
          { succeeded := false, mblock := encoded.mblock, header := encoded.header, coder }

def decode (mblock : MemoryBlock) (coder : SecurePacketCoder suite κ) :
    Decoded (SecurePacketCoder suite κ) :=
  let decoded := PacketCoder.decode mblock coder.component
  let mblock := decoded.mblock
  let coder := { coder with component := decoded.coder }
  if decoded.succeeded then
    let additionalPacketHeader :=
      AdditionalPacketHeader.read (mblock.buffer.drop coder.rawPacketHeaderSize)
    let (cipherKey, cipherKeyGenerator) := coder.cipherKeyGenerator.getDecryptCipherKey
    let coder := { coder with cipherKeyGenerator }
    let fingerPrint := getFingerPrint cipherKey
    if fingerPrint ≠ additionalPacketHeader.fingerPrint then
      { succeeded := false, mblock, coder }
    else
      let body := bytesFrom coder.securePacketHeaderSize mblock
      let ciphered := if body.length > 0 then coder.cipher.decrypt suite.engine body cipherKey
        else { output := some [], cipher := coder.cipher }
      let coder := { coder with cipher := ciphered.cipher }
      match ciphered.output with
      | none => { succeeded := false, mblock, coder }
      | some output =>
          let mblock := mblock.store coder.securePacketHeaderSize output
          let checkSum := getCheckSum suite (bytesFrom coder.securePacketHeaderSize mblock) fingerPrint
          { succeeded := checkSum == additionalPacketHeader.checkSum, mblock, coder }
  else
    { succeeded := false, mblock, coder }

end SecurePacketCoder

instance {suite : CipherSuite} {κ : Type} [PacketCoder κ] :
    PacketCoder (SecurePacketCoder suite κ) where
  reset := SecurePacketCoder.reset
  generateCipherSeed clock _ := SecurePacketCoder.generateCipherSeed suite clock
  setEncryptSeed := SecurePacketCoder.setEncryptSeed
  setDecryptSeed := SecurePacketCoder.setDecryptSeed
  readHeader header mblock coder := PacketCoder.readHeader header mblock coder.component
  encode := SecurePacketCoder.encode
  decode := SecurePacketCoder.decode
  extendCipherKeyTimeLimit := SecurePacketCoder.extendCipherKeyTimeLimit
  getHeaderSize coder := coder.securePacketHeaderSize
  getMaxPacketBodySize coder :=
    PacketCoder.getMaxPacketBodySize coder.component - AdditionalPacketHeader.headerSize
  shouldExchangeCipherSeed := SecurePacketCoder.shouldExchangeCipherSeed
  isCipherKeyExpired := SecurePacketCoder.isCipherKeyExpired
  hasPacketCipher _ := true

instance {suite : CipherSuite} {κ : Type} [PlainHeaderCoder κ] :
    PlainHeaderCoder (SecurePacketCoder suite κ) where
  header_plain coder :=
    Nat.le_trans (PlainHeaderCoder.header_plain coder.component) (Nat.le_add_right _ _)
  readHeader_reads header mblock coder enough :=
    PlainHeaderCoder.readHeader_reads header mblock coder.component enough

end Sne.Sgp
