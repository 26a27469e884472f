import Sne.Base.MemoryBlock
import Sne.Sgp.CsProtocol

/-!
# Packet coders

`PacketCoder.h`, `PacketCoder.cpp` and `CsPacketCoder.h`. A coder writes the
header of a packet, and may change its body, in the block that holds the packet.
Out-parameters of the source are fields of the result here.
-/

namespace Sne.Sgp

open Sne.Base

set_option autoImplicit false

abbrev Seed := List UInt8

structure HeaderRead where
  succeeded : Bool
  header : CsPacketHeader
  deriving DecidableEq, Repr

structure Encoded (κ : Type) where
  succeeded : Bool
  mblock : MemoryBlock
  header : CsPacketHeader
  coder : κ

structure Decoded (κ : Type) where
  succeeded : Bool
  mblock : MemoryBlock
  coder : κ

namespace PacketCoder

/-- `PacketCoder::readHeader` for a coder whose header has `headerSize` bytes. -/
def readHeaderImpl (headerSize : Nat) (header : CsPacketHeader) (mblock : MemoryBlock) :
    HeaderRead :=
  if mblock.length ≥ headerSize then
    let header := CsPacketHeader.read (mblock.buffer.drop mblock.rdPtr)
    { succeeded := header.isValid, header }
  else
    { succeeded := false, header }

/-- `PacketCoder::encode` for a coder whose header has `headerSize` bytes. The
header goes to the base of the block. -/
def encodeImpl {κ : Type} (headerSize : Nat) (mblock : MemoryBlock) (header : CsPacketHeader)
    (coder : κ) : Encoded κ :=
  if header.isValid && decide (mblock.length ≥ headerSize) then
    { succeeded := header.isValid, mblock := mblock.store 0 header.write, header, coder }
  else
    { succeeded := false, mblock, header, coder }

def decodeImpl {κ : Type} (mblock : MemoryBlock) (coder : κ) : Decoded κ :=
  { succeeded := true, mblock, coder }

end PacketCoder

/-- `std::chrono::steady_clock::time_point`, in nanoseconds. -/
abbrev TimePoint := Nat

/-- `core::getElapsedTime`: whole milliseconds, as a `msec_t`. -/
def getElapsedTime (past now : TimePoint) : Nat := (now - past) / 1000000 % 2 ^ 32

class PacketCoder (κ : Type) where
  reset : TimePoint → κ → κ
  /-- The seeds to encrypt and to decrypt with, for a value of `clock()`. -/
  generateCipherSeed : UInt32 → κ → Seed × Seed
  setEncryptSeed : Seed → κ → κ
  setDecryptSeed : Seed → κ → κ
  readHeader : CsPacketHeader → MemoryBlock → κ → HeaderRead
  encode : MemoryBlock → CsPacketHeader → κ → Encoded κ
  decode : MemoryBlock → κ → Decoded κ
  extendCipherKeyTimeLimit : TimePoint → κ → κ
  getHeaderSize : κ → Nat
  getMaxPacketBodySize : κ → Nat
  shouldExchangeCipherSeed : κ → Bool
  isCipherKeyExpired : TimePoint → κ → Bool
  hasPacketCipher : κ → Bool

namespace PacketCoder

variable {κ : Type} [PacketCoder κ]

def reserveHeader (coder : κ) (mblock : MemoryBlock) : MemoryBlock :=
  mblock.reset.advanceWrPtr (getHeaderSize coder)

def advanceToBody (coder : κ) (mblock : MemoryBlock) : MemoryBlock :=
  mblock.setRdPtr (getHeaderSize coder)

/-- The length is narrowed to 16 bits. -/
def getBodySize (coder : κ) (mblock : MemoryBlock) : BodySize :=
  UInt16.ofNat (mblock.length - getHeaderSize coder)

def isValidPacket (coder : κ) (mblock : MemoryBlock) : Bool :=
  mblock.length ≥ getHeaderSize coder

end PacketCoder

/-- A coder that finds the plain header in front of every packet, as the coders
of this library do. -/
class PlainHeaderCoder (κ : Type) extends PacketCoder κ where
  header_plain : ∀ coder : κ, CsPacketHeader.getHeaderSize ≤ getHeaderSize coder
  readHeader_reads : ∀ (header : CsPacketHeader) (mblock : MemoryBlock) (coder : κ),
    CsPacketHeader.getHeaderSize ≤ mblock.length →
    readHeader header mblock coder =
      { succeeded := true, header := CsPacketHeader.read (mblock.buffer.drop mblock.rdPtr) }

theorem read_header_impl_reads (header : CsPacketHeader) (mblock : MemoryBlock)
    (enough : CsPacketHeader.getHeaderSize ≤ mblock.length) :
    PacketCoder.readHeaderImpl CsPacketHeader.getHeaderSize header mblock =
      { succeeded := true, header := CsPacketHeader.read (mblock.buffer.drop mblock.rdPtr) } := by
  simp only [PacketCoder.readHeaderImpl, ge_iff_le, if_pos enough, CsPacketHeader.read_valid]

structure CsPacketCoder where
  deriving DecidableEq, Repr

instance : PlainHeaderCoder CsPacketCoder where
  reset _ coder := coder
  generateCipherSeed _ _ := ([], [])
  setEncryptSeed _ coder := coder
  setDecryptSeed _ coder := coder
  readHeader header mblock _ := PacketCoder.readHeaderImpl CsPacketHeader.getHeaderSize header mblock
  encode mblock header coder := PacketCoder.encodeImpl CsPacketHeader.getHeaderSize mblock header coder
  decode mblock coder := PacketCoder.decodeImpl mblock coder
  extendCipherKeyTimeLimit _ coder := coder
  getHeaderSize _ := CsPacketHeader.getHeaderSize
  getMaxPacketBodySize _ := 65535 - CsPacketHeader.getHeaderSize
  shouldExchangeCipherSeed _ := false
  isCipherKeyExpired _ _ := false
  hasPacketCipher _ := false
  header_plain _ := Nat.le_refl _
  readHeader_reads header mblock _ enough := read_header_impl_reads header mblock enough

/-- A block that is ready to be sent: room for the header, then the body. -/
structure SendBlock (headerSize : Nat) where
  mblock : MemoryBlock
  valid : mblock.Valid
  atBase : mblock.rdPtr = 0
  reserved : headerSize ≤ mblock.length

namespace SendBlock

variable {headerSize : Nat}

def body (block : SendBlock headerSize) : List UInt8 := block.mblock.contents.drop headerSize

theorem length_eq (block : SendBlock headerSize) :
    block.mblock.length = headerSize + block.body.length := by
  have reserved := block.reserved
  rw [body, List.length_drop, MemoryBlock.contents_length block.valid]
  omega

theorem store_contents (block : SendBlock headerSize) (header : List UInt8)
    (exact : header.length = headerSize) :
    (block.mblock.store 0 header).Valid ∧
      (block.mblock.store 0 header).contents = header ++ block.body := by
  have inside := block.valid.inside
  have reserved := block.reserved
  have atBase := block.atBase
  rw [MemoryBlock.length] at reserved
  constructor
  · constructor
    · exact block.valid.ordered
    · simp only [MemoryBlock.store, List.take_zero, List.nil_append, List.length_append,
        List.length_drop]
      omega
  · simp only [MemoryBlock.store, MemoryBlock.contents, body, atBase, List.take_zero,
      List.nil_append, List.drop_zero, Nat.zero_add]
    rw [List.take_append, List.take_of_length_le (by omega), exact, List.drop_take]

def append (block : SendBlock headerSize) (bytes : List UInt8) : SendBlock headerSize where
  mblock := block.mblock.copyFrom bytes
  valid := MemoryBlock.copy_from_valid block.valid bytes
  atBase := by
    rw [MemoryBlock.copy_from_rdPtr, block.atBase]
  reserved := by
    have reserved := block.reserved
    rw [← MemoryBlock.contents_length block.valid] at reserved
    rw [← MemoryBlock.contents_length (MemoryBlock.copy_from_valid block.valid bytes),
      MemoryBlock.copy_from_contents block.valid, List.length_append]
    omega

theorem append_body (block : SendBlock headerSize) (bytes : List UInt8) :
    (block.append bytes).body = block.body ++ bytes := by
  have reserved := block.reserved
  rw [← MemoryBlock.contents_length block.valid] at reserved
  simp only [body, append]
  rw [MemoryBlock.copy_from_contents block.valid, List.drop_append_of_le_length reserved]

theorem store_body (block : SendBlock headerSize) (output : List UInt8)
    (exact : output.length = block.body.length) :
    ∃ after : SendBlock headerSize, after.mblock = block.mblock.store headerSize output ∧
      after.body = output := by
  have inside := block.valid.inside
  have atBase := block.atBase
  have length := block.length_eq
  rw [MemoryBlock.length, atBase] at length
  have front : (block.mblock.buffer.take headerSize).length = headerSize :=
    List.length_take_of_le (by omega)
  have valid : (block.mblock.store headerSize output).Valid := by
    constructor
    · exact block.valid.ordered
    · simp only [MemoryBlock.store, List.length_append, List.length_drop, front]
      omega
  refine ⟨{ mblock := block.mblock.store headerSize output, valid, atBase, reserved := ?_ }, rfl, ?_⟩
  · exact block.reserved
  · simp only [body, MemoryBlock.contents, MemoryBlock.store, atBase, List.drop_zero]
    have whole : (block.mblock.buffer.take headerSize ++ output).length = block.mblock.wrPtr := by
      rw [List.length_append, front]
      omega
    rw [List.take_append_of_le_length (Nat.le_of_eq whole.symm),
      List.take_of_length_le (Nat.le_of_eq whole), List.drop_left' front]

theorem bytes_from_header (block : SendBlock headerSize) :
    (block.mblock.buffer.take block.mblock.wrPtr).drop headerSize = block.body := by
  rw [body, MemoryBlock.contents, block.atBase, List.drop_zero]

end SendBlock

end Sne.Sgp
