import Sne.Core.Stream

/-!
# The input bit stream

`IBitStream.cpp` and the inline readers of `IBitStream.h`. `bitReadCount` is the
number of bits of the front byte that have been read. The masks are `int`
expressions in the source: the shift count is taken modulo 32, the result wraps
to 32 bits, and it is sign-extended when it meets a 64-bit value.
-/

namespace Sne.Core

open Sne.Library.Exec

set_option autoImplicit false

structure IBitStream (β : Type) where
  streamBuffer : β
  shouldUseUtf8ForString : Bool
  bitReadCount : Nat
  deriving DecidableEq, Repr

namespace IBitStream

def create {β : Type} (streamBuffer : β) (shouldUseUtf8ForString : Bool) : IBitStream β :=
  { streamBuffer, shouldUseUtf8ForString, bitReadCount := 0 }

/-- The `int` expression `(1 << bitCount) - 1`. -/
def intMask (bitCount : Nat) : BitVec 32 := (1#32 <<< (bitCount % 32)) - 1#32

/-- The mask of `readBitsImpl`, converted to a data type of `n` bits. -/
def readMask (n bitCount : Nat) : BitVec n :=
  (if bitCount < n then intMask bitCount else ~~~0#32).signExtend n

section Buffer

variable {β : Type} [StreamBuffer β]

def onBuffer {α : Type} (program : StreamM β α) : StreamM (IBitStream β) α :=
  focus (fun stream => stream.streamBuffer)
    (fun stream streamBuffer => { stream with streamBuffer }) program

def frontBits (n : Nat) (buffer : β) : BitVec n :=
  (StreamBuffer.front buffer).toBitVec.setWidth n

/-- The `for` loop of `readBitsImpl`, which runs at most once for each remaining
bit. -/
def readLeftBits {n : Nat} : Nat → Nat → Nat → BitVec n → StreamM β (BitVec n)
  | 0, _, _, result => pure result
  | fuel + 1, leftBitCount, shiftCount, result =>
      if leftBitCount > 0 then do
        modify StreamBuffer.pop
        let buffer ← get
        readLeftBits fuel (leftBitCount - charBit) (shiftCount + charBit)
          (result ||| (frontBits n buffer <<< shiftCount))
      else
        pure result

def readBitsImpl (n bitCount : Nat) : StreamM (IBitStream β) (BitVec n) := do
  require (isEnoughBits n bitCount) (.streaming "invalid bitCount")
  let stream ← get
  let shiftCount := charBit - stream.bitReadCount
  let leftBitCount := bitCount - shiftCount
  let needBytes := toBytes leftBitCount + 1
  require (!decide (StreamBuffer.size stream.streamBuffer < needBytes))
    (.streaming "buffer is not enough")
  let result ← onBuffer (readLeftBits leftBitCount leftBitCount shiftCount
    (frontBits n stream.streamBuffer >>> stream.bitReadCount))
  let bitReadCount := (stream.bitReadCount + bitCount) &&& (charBit - 1)
  modify fun stream => { stream with bitReadCount }
  guarded (decide (bitReadCount = 0)) (onBuffer (modify StreamBuffer.pop))
  pure (result &&& readMask n bitCount)

def readSignedNumeric (size bitCount : Nat) : StreamM (IBitStream β) (BitVec 32) := do
  let numeric ← readBitsImpl 32 bitCount
  let mask := intMask bitCount
  let sign := (numeric &&& mask) >>> (bitCount - 1)
  pure (if bitCount < size ∧ sign ≠ 0 then numeric ||| ~~~mask else numeric)

def readUInt64 (bitCount : Nat) : StreamM (IBitStream β) UInt64 := do
  let value ← readBitsImpl 64 bitCount
  pure (UInt64.ofBitVec value)

def readUInt32 (bitCount : Nat) : StreamM (IBitStream β) UInt32 := do
  let numeric ← readBitsImpl 32 bitCount
  pure (UInt32.ofBitVec numeric)

def readUInt16 (bitCount : Nat) : StreamM (IBitStream β) UInt16 := do
  let numeric ← readBitsImpl 32 bitCount
  pure (UInt16.ofBitVec (numeric.setWidth 16))

def readUInt8 (bitCount : Nat) : StreamM (IBitStream β) UInt8 := do
  let numeric ← readBitsImpl 32 bitCount
  pure (UInt8.ofBitVec (numeric.setWidth 8))

def readBool (bitCount : Nat) : StreamM (IBitStream β) Bool := do
  let numeric ← readBitsImpl 32 bitCount
  pure (decide (numeric ≠ 0))

/-- Unlike the narrower readers, the mask of the sign extension is an `int` here
and is sign-extended to 64 bits. -/
def readInt64 (bitCount : Nat) : StreamM (IBitStream β) Int64 := do
  let value ← readBitsImpl 64 bitCount
  let mask := (intMask bitCount).signExtend 64
  let sign := (value &&& mask) >>> (bitCount - 1)
  pure (Int64.ofBitVec (if bitCount < 64 ∧ sign ≠ 0 then value ||| ~~~mask else value))

def readInt32 (bitCount : Nat) : StreamM (IBitStream β) Int32 := do
  let numeric ← readSignedNumeric 32 bitCount
  pure (Int32.ofBitVec numeric)

def readInt16 (bitCount : Nat) : StreamM (IBitStream β) Int16 := do
  let numeric ← readSignedNumeric 16 bitCount
  pure (Int16.ofBitVec (numeric.setWidth 16))

def readInt8 (bitCount : Nat) : StreamM (IBitStream β) Int8 := do
  let numeric ← readSignedNumeric 8 bitCount
  pure (Int8.ofBitVec (numeric.setWidth 8))

def readFloat32 (bitCount : Nat) : StreamM (IBitStream β) UInt32 :=
  readUInt32 bitCount

def readEnum (bitCount : Nat) : StreamM (IBitStream β) UInt64 :=
  readUInt64 bitCount

def align : StreamM (IBitStream β) Unit := do
  let stream ← get
  guarded (decide (stream.bitReadCount > 0)) (onBuffer (modify StreamBuffer.pop))
  modify fun stream => { stream with bitReadCount := 0 }

def reset (resetBuffer : Bool) (stream : IBitStream β) : IBitStream β :=
  { stream with
    streamBuffer :=
      if resetBuffer then StreamBuffer.reset stream.streamBuffer else stream.streamBuffer
    bitReadCount := 0 }

def readBuffer (length : UInt16) : StreamM (IBitStream β) (List UInt8) := do
  align
  onBuffer (StreamBuffer.copyTo length.toNat)

def readString (maxLength sizeBits : Nat) : StreamM (IBitStream β) (List UInt8) := do
  let strLen ← readUInt32 sizeBits
  if strLen > 0 then do
    let bytes ← readBuffer strLen.toUInt16
    pure ((zeroPadded strLen.toNat bytes).take maxLength)
  else
    pure []

def readWString (maxLength sizeBits : Nat) : StreamM (IBitStream β) (List WChar) := do
  let strLen ← readUInt32 sizeBits
  let stream ← get
  if strLen > 0 then
    if stream.shouldUseUtf8ForString then do
      let bytes ← readBuffer strLen.toUInt16
      pure ((fromUtf8 (zeroPadded strLen.toNat bytes)).take maxLength)
    else do
      let bytes ← readBuffer (strLen.toUInt16 * 4)
      pure ((bytesWChars strLen.toNat bytes).take maxLength)
  else
    pure []

instance : IStream (IBitStream β) where
  readUInt64 := readUInt64
  readUInt32 := readUInt32
  readUInt16 := readUInt16
  readUInt8 := readUInt8
  readBool := readBool
  readInt64 := readInt64
  readInt32 := readInt32
  readInt16 := readInt16
  readInt8 := readInt8
  readFloat32 := readFloat32
  readEnum := readEnum
  readString := readString
  readWString := readWString
  readBuffer := readBuffer
  align := align
  reset := reset

end Buffer

end IBitStream

end Sne.Core
