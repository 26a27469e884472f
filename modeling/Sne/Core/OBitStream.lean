import Sne.Core.Stream

/-!
# The output bit stream

`OBitStream.cpp`. A field is packed from the least significant bit on, into the
unused high bits of the last byte first. `holdingBitCount` is the number of bits
used in that byte, 0 when the stream stands on a byte boundary.
-/

namespace Sne.Core

open Sne.Library.Exec

set_option autoImplicit false

structure OBitStream (β : Type) where
  streamBuffer : β
  shouldUseUtf8ForString : Bool
  holdingBitCount : Nat
  totalBitCount : Int
  deriving DecidableEq, Repr

namespace OBitStream

def create {β : Type} (streamBuffer : β) (shouldUseUtf8ForString : Bool) : OBitStream β :=
  { streamBuffer, shouldUseUtf8ForString, holdingBitCount := 0, totalBitCount := 0 }

def toItem {n : Nat} (value : BitVec n) : UInt8 := UInt8.ofBitVec (value.setWidth 8)

def resetUnusedBits {n : Nat} (value : BitVec n) (bitCount : Nat) : BitVec n :=
  if bitCount < n then value &&& ((1#n <<< bitCount) - 1#n) else value

section Buffer

variable {β : Type} [StreamBuffer β]

def onBuffer {α : Type} (program : StreamM β α) : StreamM (OBitStream β) α :=
  focus (fun stream => stream.streamBuffer)
    (fun stream streamBuffer => { stream with streamBuffer }) program

/-- The `do ... while` loop of `writeBitsImpl`, which runs at most once for each
remaining bit. -/
def writeLeftBits {n : Nat} : Nat → Nat → BitVec n → StreamM β Unit
  | 0, _, _ => pure ()
  | fuel + 1, leftBitCount, theValue => do
      StreamBuffer.push (toItem theValue)
      guarded (decide (leftBitCount > charBit))
        (writeLeftBits fuel (leftBitCount - charBit) (theValue >>> charBit))

def writeFirstBits {n : Nat} (theValue : BitVec n) : StreamM (OBitStream β) Unit := do
  let stream ← get
  if stream.holdingBitCount > 0 then do
    require (!StreamBuffer.empty stream.streamBuffer) (.streaming "buffer is empty")
    set { stream with
      streamBuffer := StreamBuffer.setBack
        (StreamBuffer.back stream.streamBuffer |||
          toItem (theValue <<< stream.holdingBitCount)) stream.streamBuffer }
  else
    onBuffer (StreamBuffer.push (toItem theValue))

def writeBitsImpl {n : Nat} (value : BitVec n) (bitCount : Nat) :
    StreamM (OBitStream β) Unit := do
  require (isEnoughBits n bitCount) (.streaming "invalid bitCount")
  let theValue := resetUnusedBits value bitCount
  let stream ← get
  writeFirstBits theValue
  let bitShiftCount := charBit - stream.holdingBitCount
  guarded (decide (bitCount > bitShiftCount))
    (onBuffer (writeLeftBits (bitCount - bitShiftCount) (bitCount - bitShiftCount)
      (theValue >>> bitShiftCount)))
  modify fun stream => { stream with
    holdingBitCount := (stream.holdingBitCount + bitCount) &&& (charBit - 1)
    totalBitCount := (stream.totalBitCount + bitCount).bmod (2 ^ 32) }

def writeUInt64 (value : UInt64) (bitCount : Nat) : StreamM (OBitStream β) Unit :=
  writeBitsImpl value.toBitVec bitCount

def writeUInt32 (value : UInt32) (bitCount : Nat) : StreamM (OBitStream β) Unit :=
  writeBitsImpl value.toBitVec bitCount

def writeUInt16 (value : UInt16) (bitCount : Nat) : StreamM (OBitStream β) Unit :=
  writeBitsImpl (value.toBitVec.setWidth 32) bitCount

def writeUInt8 (value : UInt8) (bitCount : Nat) : StreamM (OBitStream β) Unit :=
  writeBitsImpl (value.toBitVec.setWidth 32) bitCount

def writeBool (value : Bool) (bitCount : Nat) : StreamM (OBitStream β) Unit :=
  writeBitsImpl ((BitVec.ofBool value).setWidth 32) bitCount

def writeInt64 (value : Int64) (bitCount : Nat) : StreamM (OBitStream β) Unit :=
  writeBitsImpl value.toBitVec bitCount

def writeInt32 (value : Int32) (bitCount : Nat) : StreamM (OBitStream β) Unit :=
  writeBitsImpl value.toBitVec bitCount

def writeInt16 (value : Int16) (bitCount : Nat) : StreamM (OBitStream β) Unit :=
  writeBitsImpl (value.toBitVec.signExtend 32) bitCount

def writeInt8 (value : Int8) (bitCount : Nat) : StreamM (OBitStream β) Unit :=
  writeBitsImpl (value.toBitVec.signExtend 32) bitCount

/-- The bit count is ignored: a float is always written with 32 bits. -/
def writeFloat32 (pattern : UInt32) (_bitCount : Nat) : StreamM (OBitStream β) Unit :=
  writeBitsImpl pattern.toBitVec 32

def writeEnum (value : UInt64) (bitCount : Nat) : StreamM (OBitStream β) Unit :=
  writeUInt64 value bitCount

def align : StreamM (OBitStream β) Unit := do
  let stream ← get
  guarded (decide (stream.holdingBitCount > 0))
    (writeUInt32 0 (charBit - stream.holdingBitCount))

/-- Only the bit total is cleared; a partly filled byte stays noted. -/
def reset (resetBuffer : Bool) (stream : OBitStream β) : OBitStream β :=
  { stream with
    streamBuffer :=
      if resetBuffer then StreamBuffer.reset stream.streamBuffer else stream.streamBuffer
    totalBitCount := 0 }

def writeBuffer (buffer : List UInt8) (length : UInt16) : StreamM (OBitStream β) Unit := do
  align
  onBuffer (StreamBuffer.copyFrom (buffer.take length.toNat))
  modify fun stream => { stream with
    totalBitCount := (stream.totalBitCount + length.toNat * charBit).bmod (2 ^ 32) }

def writeString (value : List UInt8) (maxLength sizeBitCount : Nat) :
    StreamM (OBitStream β) Unit := do
  let strLen := UInt32.ofNat (min value.length maxLength)
  writeUInt32 strLen sizeBitCount
  writeBuffer value strLen.toUInt16

def writeWString (value : List WChar) (maxLength sizeBitCount : Nat) :
    StreamM (OBitStream β) Unit := do
  let stream ← get
  if stream.shouldUseUtf8ForString then do
    let utf8 := toUtf8 (value.take maxLength)
    let strLen := UInt32.ofNat (min utf8.length maxLength)
    writeUInt32 strLen sizeBitCount
    writeBuffer utf8 strLen.toUInt16
  else do
    let strLen := UInt32.ofNat (min value.length maxLength)
    writeUInt32 strLen sizeBitCount
    writeBuffer (wcharBytes value) (strLen.toUInt16 * 4)

instance : OStream (OBitStream β) where
  writeUInt64 := writeUInt64
  writeUInt32 := writeUInt32
  writeUInt16 := writeUInt16
  writeUInt8 := writeUInt8
  writeBool := writeBool
  writeInt64 := writeInt64
  writeInt32 := writeInt32
  writeInt16 := writeInt16
  writeInt8 := writeInt8
  writeFloat32 := writeFloat32
  writeEnum := writeEnum
  writeString := writeString
  writeWString := writeWString
  writeBuffer := writeBuffer
  align := align
  reset := reset

end Buffer

end OBitStream

end Sne.Core
