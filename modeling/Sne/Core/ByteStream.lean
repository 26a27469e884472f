import Sne.Core.Stream
import Sne.Library.Codec
import Sne.Library.Endian

/-!
# Byte streams

`OByteStream` and `IByteStream` on a little-endian host, where `toRpcByteOrder`
changes nothing. Widths in bits are ignored, and a number takes the bytes of its
type.
-/

namespace Sne.Core

open Sne.Library.Exec Sne.Library.Codec Sne.Library.Endian

set_option autoImplicit false

structure OByteStream (β : Type) where
  streamBuffer : β
  shouldUseUtf8ForString : Bool

namespace OByteStream

variable {β : Type} [StreamBuffer β]

def onBuffer {α : Type} (program : StreamM β α) : StreamM (OByteStream β) α :=
  focus (fun stream => stream.streamBuffer)
    (fun stream streamBuffer => { stream with streamBuffer }) program

def writeBytes (bytes : List UInt8) : StreamM (OByteStream β) Unit :=
  onBuffer (StreamBuffer.copyFrom bytes)

def writeByte (value : UInt8) : StreamM (OByteStream β) Unit :=
  onBuffer (StreamBuffer.push value)

def writeNumeric (size value : Nat) : StreamM (OByteStream β) Unit :=
  writeBytes (littleEndian size value)

def writeEnum (value : UInt64) (bitCount : Nat) : StreamM (OByteStream β) Unit :=
  writeBytes ((littleEndian 8 value.toNat).take (toBytes bitCount))

def writeStringLength (strLen : UInt16) (sizeBitCount : Nat) : StreamM (OByteStream β) Unit :=
  if sizeBitCount ≤ 8 then
    writeNumeric 1 strLen.toUInt8.toNat
  else
    writeNumeric 2 strLen.toNat

def writeString (value : List UInt8) (maxLength sizeBitCount : Nat) :
    StreamM (OByteStream β) Unit := do
  let strLen := UInt16.ofNat (min value.length maxLength)
  writeStringLength strLen sizeBitCount
  writeBytes (value.take strLen.toNat)

def writeWString (value : List WChar) (maxLength sizeBitCount : Nat) :
    StreamM (OByteStream β) Unit := do
  let stream ← get
  if stream.shouldUseUtf8ForString then do
    let utf8 := toUtf8 (value.take maxLength)
    writeStringLength (UInt16.ofNat utf8.length) sizeBitCount
    writeBytes utf8
  else do
    let strLen := UInt16.ofNat (min value.length maxLength)
    writeStringLength strLen sizeBitCount
    writeEach (fun wc : WChar => writeNumeric 4 wc.toNat) (value.take strLen.toNat)

def reset (resetBuffer : Bool) (stream : OByteStream β) : OByteStream β :=
  if resetBuffer then
    { stream with streamBuffer := StreamBuffer.reset stream.streamBuffer }
  else
    stream

instance : OStream (OByteStream β) where
  writeUInt64 value _ := writeNumeric 8 value.toNat
  writeUInt32 value _ := writeNumeric 4 value.toNat
  writeUInt16 value _ := writeNumeric 2 value.toNat
  writeUInt8 value _ := writeByte value
  writeBool value _ := writeByte (if value then 1 else 0)
  writeInt64 value _ := writeNumeric 8 value.toUInt64.toNat
  writeInt32 value _ := writeNumeric 4 value.toUInt32.toNat
  writeInt16 value _ := writeNumeric 2 value.toUInt16.toNat
  writeInt8 value _ := writeByte value.toUInt8
  writeFloat32 pattern _ := writeNumeric 4 pattern.toNat
  writeEnum := writeEnum
  writeString := writeString
  writeWString := writeWString
  writeBuffer buffer length := writeBytes (buffer.take length.toNat)
  align := pure ()
  reset := reset

end OByteStream

structure IByteStream (β : Type) where
  streamBuffer : β
  shouldUseUtf8ForString : Bool

namespace IByteStream

variable {β : Type} [StreamBuffer β]

def onBuffer {α : Type} (program : StreamM β α) : StreamM (IByteStream β) α :=
  focus (fun stream => stream.streamBuffer)
    (fun stream streamBuffer => { stream with streamBuffer }) program

def readBytes (readSize : Nat) : StreamM (IByteStream β) (List UInt8) :=
  if readSize > 0 then onBuffer (StreamBuffer.copyTo readSize) else pure []

def readByte : StreamM (IByteStream β) UInt8 := do
  let stream ← get
  require (!StreamBuffer.empty stream.streamBuffer) (.streaming "buffer is empty")
  let value := StreamBuffer.front stream.streamBuffer
  set { stream with streamBuffer := StreamBuffer.pop stream.streamBuffer }
  pure value

def readNumeric (size : Nat) : StreamM (IByteStream β) Nat := do
  let bytes ← readBytes size
  pure (ofLittleEndian bytes)

/-- The bytes that are not read stay as they were, and the caller drops them. -/
def readEnum (bitCount : Nat) : StreamM (IByteStream β) UInt64 := do
  let bytes ← readBytes (toBytes bitCount)
  pure (UInt64.ofNat (ofLittleEndian bytes))

def readStringSize (sizeBitCount : Nat) : StreamM (IByteStream β) Nat :=
  if sizeBitCount = 8 then do
    let byte ← readByte
    pure byte.toNat
  else
    readNumeric 2

def readString (maxLength sizeBitCount : Nat) : StreamM (IByteStream β) (List UInt8) := do
  let size ← readStringSize sizeBitCount
  if size > 0 then do
    let bytes ← readBytes size
    pure (bytes.take maxLength)
  else
    pure []

def readWString (maxLength sizeBitCount : Nat) : StreamM (IByteStream β) (List WChar) := do
  let strLen ← readStringSize sizeBitCount
  let stream ← get
  if strLen > 0 then
    if stream.shouldUseUtf8ForString then do
      let utf8 ← readBytes strLen
      pure ((fromUtf8 utf8).take maxLength)
    else do
      let value ← repeatStep (fun value : List WChar => do
        let ch ← readNumeric 4
        pure (value ++ [BitVec.ofNat 32 ch])) strLen []
      pure (value.take maxLength)
  else
    pure []

def reset (resetBuffer : Bool) (stream : IByteStream β) : IByteStream β :=
  if resetBuffer then
    { stream with streamBuffer := StreamBuffer.reset stream.streamBuffer }
  else
    stream

instance : IStream (IByteStream β) where
  readUInt64 _ := UInt64.ofNat <$> readNumeric 8
  readUInt32 _ := UInt32.ofNat <$> readNumeric 4
  readUInt16 _ := UInt16.ofNat <$> readNumeric 2
  readUInt8 _ := readByte
  readBool _ := (fun numeric => decide (numeric ≠ 0)) <$> readByte
  readInt64 _ := (fun number => (UInt64.ofNat number).toInt64) <$> readNumeric 8
  readInt32 _ := (fun number => (UInt32.ofNat number).toInt32) <$> readNumeric 4
  readInt16 _ := (fun number => (UInt16.ofNat number).toInt16) <$> readNumeric 2
  readInt8 _ := (fun byte => byte.toInt8) <$> readByte
  readFloat32 _ := UInt32.ofNat <$> readNumeric 4
  readEnum := readEnum
  readString := readString
  readWString := readWString
  readBuffer length := readBytes length.toNat
  align := pure ()
  reset := reset

end IByteStream

section Fifo

variable {β : Type} [FifoBuffer β]

def OByteStream.Holds (stream : OByteStream β) (bytes : List UInt8) : Prop :=
  FifoBuffer.contents stream.streamBuffer = bytes

def IByteStream.Holds (stream : IByteStream β) (bytes : List UInt8) : Prop :=
  FifoBuffer.contents stream.streamBuffer = bytes

namespace OByteStream

theorem writes_bytes (bytes : List UInt8) :
    Writes Holds (writeBytes bytes : StreamM (OByteStream β) Unit) bytes := by
  intro stream before held
  rcases FifoBuffer.copyFrom_runs bytes stream.streamBuffer with ⟨after, runs, contents⟩
  refine ⟨{ stream with streamBuffer := after }, runs.focus, ?_⟩
  rw [Holds] at held ⊢
  rw [contents, held]

theorem writes_byte (value : UInt8) :
    Writes Holds (writeByte value : StreamM (OByteStream β) Unit) [value] := by
  intro stream before held
  rcases FifoBuffer.push_runs value stream.streamBuffer with ⟨after, runs, contents⟩
  refine ⟨{ stream with streamBuffer := after }, runs.focus, ?_⟩
  rw [Holds] at held ⊢
  rw [contents, held]

theorem writes_numeric (size value : Nat) :
    Writes Holds (writeNumeric size value : StreamM (OByteStream β) Unit) (littleEndian size value) :=
  writes_bytes _

end OByteStream

namespace IByteStream

theorem reads_bytes (bytes : List UInt8) :
    Reads Holds (readBytes bytes.length : StreamM (IByteStream β) (List UInt8)) bytes
      (fun read => read = bytes) := by
  intro stream rest held
  unfold readBytes
  split
  case isTrue =>
    have enough : bytes.length ≤ (FifoBuffer.contents stream.streamBuffer).length := by
      rw [held, List.length_append]
      exact Nat.le_add_right _ _
    rcases FifoBuffer.copyTo_runs bytes.length stream.streamBuffer enough with ⟨after, runs, contents⟩
    rw [held] at runs contents
    rw [List.take_left' rfl] at runs
    rw [List.drop_left' rfl] at contents
    exact ⟨bytes, { stream with streamBuffer := after }, runs.focus, rfl, contents⟩
  case isFalse none =>
    have empty : bytes = [] := List.eq_nil_of_length_eq_zero (Nat.eq_zero_of_not_pos none)
    rw [empty] at held ⊢
    exact ⟨[], stream, runs_pure _ _, rfl, held⟩

theorem reads_byte (value : UInt8) :
    Reads Holds (readByte : StreamM (IByteStream β) UInt8) [value] (fun read => read = value) := by
  intro stream rest held
  have front : StreamBuffer.front stream.streamBuffer = value :=
    FifoBuffer.front_contents _ _ _ held
  have some : (!StreamBuffer.empty stream.streamBuffer) = true := by
    rw [FifoBuffer.empty_contents, held]
    rfl
  have popped : FifoBuffer.contents (StreamBuffer.pop stream.streamBuffer) = rest := by
    rw [FifoBuffer.pop_contents, held]
    rfl
  refine ⟨value, { stream with streamBuffer := StreamBuffer.pop stream.streamBuffer }, ?_, rfl, popped⟩
  apply (runs_get stream).bind
  apply (runs_require some _ stream).bind
  rw [front]
  exact (runs_set _ _).bind (runs_pure _ _)

theorem reads_numeric {size value : Nat} (fits : value < 256 ^ size) :
    Reads Holds (readNumeric size : StreamM (IByteStream β) Nat) (littleEndian size value)
      (fun read => read = value) := by
  have bytes := reads_bytes (β := β) (littleEndian size value)
  rw [little_endian_length] at bytes
  apply bytes.returning
  intro read same
  rw [same, of_little_endian_little_endian]
  exact Nat.mod_eq_of_lt fits

end IByteStream

def stringBytes (sizeBitCount : Nat) (value : List UInt8) : List UInt8 :=
  littleEndian (sizeBitCount / 8) value.length ++ value

/-- A size field of 8 or 16 bits that can hold `maxLength`. -/
structure SizeFieldValid (maxLength sizeBitCount : Nat) : Prop where
  width : sizeBitCount = 8 ∨ sizeBitCount = 16
  wide : maxLength < 2 ^ sizeBitCount

theorem writes_string {maxLength sizeBitCount : Nat} (sizeField : SizeFieldValid maxLength sizeBitCount)
    (value : List UInt8) (short : value.length ≤ maxLength) :
    Writes OByteStream.Holds (OByteStream.writeString value maxLength sizeBitCount :
      StreamM (OByteStream β) Unit) (stringBytes sizeBitCount value) := by
  have wide := sizeField.wide
  have bound : value.length < 65536 := by
    rcases sizeField.width with rfl | rfl
    · omega
    · omega
  have strLen : (UInt16.ofNat (min value.length maxLength)).toNat = value.length := by
    rw [Nat.min_eq_left short, UInt16.toNat_ofNat']
    omega
  simp only [OByteStream.writeString, strLen, List.take_length]
  apply Writes.bind _ (OByteStream.writes_bytes value)
  unfold OByteStream.writeStringLength
  rcases sizeField.width with rfl | rfl
  · have narrow : (UInt16.ofNat (min value.length maxLength)).toUInt8.toNat = value.length := by
      rw [UInt16.toNat_toUInt8, strLen]
      omega
    rw [if_pos (by omega), narrow]
    exact OByteStream.writes_numeric 1 value.length
  · rw [if_neg (by omega), strLen]
    exact OByteStream.writes_numeric 2 value.length

theorem reads_string {maxLength sizeBitCount : Nat} (sizeField : SizeFieldValid maxLength sizeBitCount)
    (value : List UInt8) (short : value.length ≤ maxLength) :
    Reads IByteStream.Holds (IByteStream.readString maxLength sizeBitCount :
      StreamM (IByteStream β) (List UInt8)) (stringBytes sizeBitCount value)
      (fun read => read = value) := by
  have wide := sizeField.wide
  have size : Reads IByteStream.Holds (IByteStream.readStringSize sizeBitCount :
      StreamM (IByteStream β) Nat) (littleEndian (sizeBitCount / 8) value.length)
      (fun read => read = value.length) := by
    unfold IByteStream.readStringSize
    rcases sizeField.width with rfl | rfl
    · rw [if_pos rfl]
      apply (IByteStream.reads_byte (UInt8.ofNat value.length)).returning
      rintro _ rfl
      rw [UInt8.toNat_ofNat']
      omega
    · rw [if_neg (by omega)]
      apply IByteStream.reads_numeric
      omega
  apply size.bind
  rintro _ rfl
  split
  case isTrue =>
    apply (IByteStream.reads_bytes value).returning
    rintro _ rfl
    exact List.take_of_length_le short
  case isFalse none =>
    have empty : value = [] := List.eq_nil_of_length_eq_zero (Nat.eq_zero_of_not_pos none)
    rw [empty]
    exact reads_pure rfl

end Fifo

end Sne.Core
