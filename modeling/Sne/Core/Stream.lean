import Mathlib.Algebra.Group.Nat.Defs
import Sne.Core.StreamBuffer
import Sne.Core.Unicode

/-!
# The stream interfaces

`OStream` and `IStream` are the abstract streams that every `serialize` method
is written against; the bit streams and the byte streams implement them. The
C++ overloads of `write` and `read` carry the name of their argument type here.
A `float32_t` is its 32-bit pattern, a `std::string` its bytes and a
`std::wstring` its code units. A reader returns what the C++ code stores through
the reference it is given.
-/

namespace Sne.Core

set_option autoImplicit false

def charBit : Nat := 8

/-- The least number of bytes that hold `bitCount` bits. A negative count gives
0 in the source, as it does here after truncated subtraction. -/
def toBytes (bitCount : Nat) : Nat := (bitCount + (charBit - 1)) / charBit

def isEnoughBits (size bitCount : Nat) : Bool := 0 < bitCount && bitCount ≤ size

theorem is_enough_bits_iff (size bitCount : Nat) :
    isEnoughBits size bitCount = true ↔ 0 < bitCount ∧ bitCount ≤ size := by
  simp [isEnoughBits]

def ushrtMax : Nat := 65535

def maxNumber (bitCount : Nat) : Nat := 2 ^ bitCount - 1

class OStream (σ : Type) where
  writeUInt64 : UInt64 → Nat → StreamM σ Unit
  writeUInt32 : UInt32 → Nat → StreamM σ Unit
  writeUInt16 : UInt16 → Nat → StreamM σ Unit
  writeUInt8 : UInt8 → Nat → StreamM σ Unit
  writeBool : Bool → Nat → StreamM σ Unit
  writeInt64 : Int64 → Nat → StreamM σ Unit
  writeInt32 : Int32 → Nat → StreamM σ Unit
  writeInt16 : Int16 → Nat → StreamM σ Unit
  writeInt8 : Int8 → Nat → StreamM σ Unit
  writeFloat32 : UInt32 → Nat → StreamM σ Unit
  writeEnum : UInt64 → Nat → StreamM σ Unit
  writeString : List UInt8 → Nat → Nat → StreamM σ Unit
  writeWString : List WChar → Nat → Nat → StreamM σ Unit
  /-- `write(const void*, uint16_t)`: the first `length` bytes at the address. -/
  writeBuffer : List UInt8 → UInt16 → StreamM σ Unit
  align : StreamM σ Unit
  reset : Bool → σ → σ

class IStream (σ : Type) where
  readUInt64 : Nat → StreamM σ UInt64
  readUInt32 : Nat → StreamM σ UInt32
  readUInt16 : Nat → StreamM σ UInt16
  readUInt8 : Nat → StreamM σ UInt8
  readBool : Nat → StreamM σ Bool
  readInt64 : Nat → StreamM σ Int64
  readInt32 : Nat → StreamM σ Int32
  readInt16 : Nat → StreamM σ Int16
  readInt8 : Nat → StreamM σ Int8
  readFloat32 : Nat → StreamM σ UInt32
  readEnum : Nat → StreamM σ UInt64
  readString : Nat → Nat → StreamM σ (List UInt8)
  readWString : Nat → Nat → StreamM σ (List WChar)
  /-- `read(void*, uint16_t)`. -/
  readBuffer : UInt16 → StreamM σ (List UInt8)
  align : StreamM σ Unit
  reset : Bool → σ → σ

/-- The bytes of an array of code units in memory, on a little-endian host. -/
def wcharBytes (value : List WChar) : List UInt8 :=
  value.flatMap fun wc : WChar => (List.range 4).map fun index =>
    UInt8.ofBitVec ((wc.ushiftRight (8 * index)).setWidth 8)

/-- The code unit whose bytes stand at the head of a list; missing bytes are 0. -/
def bytesWChar (bytes : List UInt8) : WChar :=
  (List.range 4).foldl
    (fun wc index => wc ||| ((bytes.getD index 0).toBitVec.setWidth 32 <<< (8 * index))) 0

/-- An array of `count` zero code units, overwritten from its first byte on. -/
def bytesWChars : Nat → List UInt8 → List WChar
  | 0, _ => []
  | count + 1, bytes => bytesWChar (bytes.take 4) :: bytesWChars count (bytes.drop 4)

/-- A buffer of `count` zero bytes, overwritten from its first byte on. -/
def zeroPadded (count : Nat) (bytes : List UInt8) : List UInt8 :=
  bytes.take count ++ List.replicate (count - bytes.length) 0

theorem zero_padded_exact (bytes : List UInt8) : zeroPadded bytes.length bytes = bytes := by
  rw [zeroPadded, List.take_length, Nat.sub_self, List.replicate_zero, List.append_nil]

end Sne.Core
