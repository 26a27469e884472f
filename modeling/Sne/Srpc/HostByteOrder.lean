import Sne.Library.InPlace
import Sne.Sgp.CsProtocol
import Sne.Srpc.StringRoundTrip

/-!
# The byte order of the host

The byte streams and `packet::put` and `get` on a little-endian and on a big-endian host.
`toRpcByteOrder` of `Endian.h` copies the bytes of a number within the number, and the
streams write and read the bytes of an enumeration as the host has them in memory.
-/

namespace Sne.Srpc.HostByteOrder

open Sne.Core Sne.Library.Exec Sne.Library.Codec Sne.Library.Endian Sne.Library.InPlace
open Sne.Library.Sequence (Typed)

set_option autoImplicit false

inductive Host where
  | little
  | big
deriving DecidableEq, Repr

namespace Host

/-- The bytes of an object between its address and its end, from the least significant one. -/
def order : Host → List UInt8 → List UInt8
  | little, bytes => bytes
  | big, bytes => bytes.reverse

def memory (host : Host) (size value : Nat) : List UInt8 := host.order (littleEndian size value)

def ofMemory (host : Host) (bytes : List UInt8) : Nat := ofLittleEndian (host.order bytes)

end Host

inductive Size where
  | one
  | two
  | four
  | eight
deriving DecidableEq, Repr

def Size.bytes : Size → Nat
  | one => 1
  | two => 2
  | four => 4
  | eight => 8

/-- `RpcByteOrderImpl::convert`, on the bytes of its argument. -/
def convert : Size → List UInt8 → List UInt8
  | .one, bytes => bytes
  | .two, bytes => copyBack 2 0 1 bytes
  | .four, bytes => copyBack 4 0 3 bytes
  | .eight, bytes => copyBack 8 0 7 bytes

def toRpcByteOrder (host : Host) (size : Size) (value : Nat) : Nat :=
  match host with
  | .little => value
  | .big => Host.big.ofMemory (convert size (Host.big.memory size.bytes value))

section Streams

variable {β : Type} [StreamBuffer β]

def writeNumeric (host : Host) (size : Size) (value : Nat) : StreamM (OByteStream β) Unit :=
  OByteStream.writeBytes (host.memory size.bytes (toRpcByteOrder host size value))

def writeEnum (host : Host) (value : UInt64) (bitCount : Nat) : StreamM (OByteStream β) Unit :=
  OByteStream.writeBytes ((host.memory 8 value.toNat).take (toBytes bitCount))

def readNumeric (host : Host) (size : Size) : StreamM (IByteStream β) Nat := do
  let bytes ← IByteStream.readBytes size.bytes
  pure (toRpcByteOrder host size (host.ofMemory bytes))

/-- The caller's variable is not initialized. The bytes that are not read stay as they were. -/
def readEnum (host : Host) (uninitialized : UInt64) (bitCount : Nat) :
    StreamM (IByteStream β) UInt64 := do
  let bytes ← IByteStream.readBytes (toBytes bitCount)
  let kept := (host.memory 8 uninitialized.toNat).drop (toBytes bitCount)
  pure (UInt64.ofNat (host.ofMemory (bytes ++ kept)))

def writeNumber (host : Host) : (type : NumericType) → type.Value → StreamM (OByteStream β) Unit
  | .bool, value => OByteStream.writeByte (if value then 1 else 0)
  | .int8, value => OByteStream.writeByte value.toUInt8
  | .uint8, value => OByteStream.writeByte value
  | .int16, value => writeNumeric host .two value.toUInt16.toNat
  | .uint16, value => writeNumeric host .two value.toNat
  | .int32, value => writeNumeric host .four value.toUInt32.toNat
  | .uint32, value => writeNumeric host .four value.toNat
  | .int64, value => writeNumeric host .eight value.toUInt64.toNat
  | .uint64, value => writeNumeric host .eight value.toNat
  | .float32, value => writeNumeric host .four value.toNat

def readNumber (host : Host) : (type : NumericType) → StreamM (IByteStream β) type.Value
  | .bool => (fun numeric => decide (numeric ≠ 0)) <$> IByteStream.readByte
  | .int8 => (fun byte => byte.toInt8) <$> IByteStream.readByte
  | .uint8 => IByteStream.readByte
  | .int16 => (fun number => (UInt16.ofNat number).toInt16) <$> readNumeric host .two
  | .uint16 => UInt16.ofNat <$> readNumeric host .two
  | .int32 => (fun number => (UInt32.ofNat number).toInt32) <$> readNumeric host .four
  | .uint32 => UInt32.ofNat <$> readNumeric host .four
  | .int64 => (fun number => (UInt64.ofNat number).toInt64) <$> readNumeric host .eight
  | .uint64 => UInt64.ofNat <$> readNumeric host .eight
  | .float32 => UInt32.ofNat <$> readNumeric host .four

end Streams

/-- `packet::put`. -/
def put (host : Host) (size : Size) (value : Nat) (buffer : List UInt8) : List UInt8 :=
  host.memory size.bytes (toRpcByteOrder host size value) ++ buffer.drop size.bytes

/-- `packet::get`. -/
def get (host : Host) (size : Size) (buffer : List UInt8) : Nat :=
  toRpcByteOrder host size (host.ofMemory (buffer.take size.bytes))

inductive ItemType where
  | number (type : NumericType)
  | enum (type : EnumType)
  | bodySize
deriving DecidableEq, Repr

namespace ItemType

abbrev Value : ItemType → Type
  | number type => type.Value
  | enum type => BitVec type.bitSize
  | bodySize => UInt16

def write {β : Type} [StreamBuffer β] (host : Host) :
    (type : ItemType) → type.Value → StreamM (OByteStream β) Unit
  | number type, value => writeNumber host type value
  | enum type, value => writeEnum host (type.toCarrier value) type.bitSize
  | bodySize, value => OByteStream.writeBytes (put host .two value.toNat (List.replicate 2 0))

def read {γ : Type} [StreamBuffer γ] (host : Host) (uninitialized : UInt64) :
    (type : ItemType) → StreamM (IByteStream γ) type.Value
  | number type => readNumber host type
  | enum type => do
      let aValue ← readEnum host uninitialized type.bitSize
      pure (type.ofCarrier aValue)
  | bodySize => do
      let buffer ← IByteStream.readBytes 2
      pure (UInt16.ofNat (get host .two buffer))

end ItemType

abbrev Item := Typed ItemType.Value

def writeItems {β : Type} [StreamBuffer β] (host : Host) (items : List Item) :
    StreamM (OByteStream β) Unit :=
  writeEach (fun item => item.1.write host item.2) items

/-- Each read finds its variable as the stack has left it. -/
def readItems {γ : Type} [StreamBuffer γ] (host : Host) (uninitialized : Nat → UInt64) :
    Nat → List ItemType → StreamM (IByteStream γ) (List Item)
  | _, [] => pure []
  | index, type :: rest => do
      let value ← type.read host (uninitialized index)
      let values ← readItems host uninitialized (index + 1) rest
      pure (⟨type, value⟩ :: values)

section Numbers

namespace Host

variable (host : Host)

@[simp] theorem order_length (bytes : List UInt8) : (host.order bytes).length = bytes.length := by
  cases host with
  | little => rfl
  | big => exact List.length_reverse

theorem order_order (bytes : List UInt8) : host.order (host.order bytes) = bytes := by
  cases host with
  | little => rfl
  | big => exact List.reverse_reverse bytes

theorem order_palindrome {bytes : List UInt8} (palindrome : bytes.Palindrome) :
    host.order bytes = bytes := by
  cases host with
  | little => rfl
  | big => exact palindrome.reverse_eq

@[simp] theorem memory_length (size value : Nat) : (host.memory size value).length = size := by
  rw [memory, order_length, little_endian_length]

theorem memory_of_memory {size : Nat} {bytes : List UInt8} (whole : bytes.length = size) :
    host.memory size (host.ofMemory bytes) = bytes := by
  have length : (host.order bytes).length = size := by rw [order_length, whole]
  rw [memory, ofMemory, ← length, little_endian_of_little_endian, order_order]

end Host

theorem convert_eq_copy_onto {size : Size} {bytes : List UInt8} (whole : bytes.length = size.bytes) :
    convert size bytes = copyOnto bytes := by
  unfold copyOnto
  rw [whole]
  cases size with
  | one =>
      obtain ⟨byte, single⟩ := List.length_eq_one_iff.mp whole
      rw [single]
      rfl
  | two => rfl
  | four => rfl
  | eight => rfl

def numericBytes (host : Host) (size : Size) (value : Nat) : List UInt8 :=
  host.memory size.bytes (toRpcByteOrder host size value)

@[simp] theorem numeric_bytes_length (host : Host) (size : Size) (value : Nat) :
    (numericBytes host size value).length = size.bytes := host.memory_length _ _

theorem numeric_bytes_same_length (host : Host) (size : Size) (value : Nat) :
    (numericBytes host size value).length = (littleEndian size.bytes value).length := by
  rw [numeric_bytes_length, little_endian_length]

theorem numeric_bytes_big (size : Size) (value : Nat) :
    numericBytes .big size value = copyOnto (littleEndian size.bytes value).reverse := by
  have whole : (Host.big.memory size.bytes value).length = size.bytes := Host.big.memory_length _ _
  have converted : (convert size (Host.big.memory size.bytes value)).length = size.bytes := by
    rw [convert_eq_copy_onto whole, copy_onto_length, whole]
  rw [numericBytes, toRpcByteOrder, Host.memory_of_memory _ converted, convert_eq_copy_onto whole]
  rfl

theorem numeric_bytes_iff (size : Size) (value : Nat) :
    numericBytes .big size value = littleEndian size.bytes value ↔
      (littleEndian size.bytes value).Palindrome := by
  have mirrored := copy_onto_reverse_iff (littleEndian size.bytes value).reverse
  rw [List.reverse_reverse] at mirrored
  rw [numeric_bytes_big, mirrored, List.Palindrome.iff_reverse_eq, List.Palindrome.iff_reverse_eq,
    List.reverse_reverse]
  exact eq_comm

theorem to_rpc_byte_order_read (host : Host) (size : Size) (value : Nat)
    (fits : value < 256 ^ size.bytes)
    (palindrome : (littleEndian size.bytes value).Palindrome) :
    toRpcByteOrder host size (host.ofMemory (littleEndian size.bytes value)) = value := by
  have number : ofLittleEndian (littleEndian size.bytes value) = value := by
    rw [of_little_endian_little_endian, Nat.mod_eq_of_lt fits]
  cases host with
  | little => exact number
  | big =>
      have whole := little_endian_length size.bytes value
      rw [toRpcByteOrder, Host.memory_of_memory _ whole, convert_eq_copy_onto whole,
        copy_onto_of_palindrome palindrome, Host.ofMemory, Host.order_palindrome _ palindrome, number]

end Numbers

section Items

variable {β : Type} [FifoBuffer β]

theorem writes_numeric (host : Host) (size : Size) (value : Nat) :
    Writes OByteStream.Holds (writeNumeric host size value : StreamM (OByteStream β) Unit)
      (numericBytes host size value) :=
  OByteStream.writes_bytes _

theorem reads_numeric (host : Host) (size : Size) (value : Nat) (fits : value < 256 ^ size.bytes)
    (palindrome : (littleEndian size.bytes value).Palindrome) :
    Reads IByteStream.Holds (readNumeric host size : StreamM (IByteStream β) Nat)
      (littleEndian size.bytes value) (fun read => read = value) := by
  have bytes := IByteStream.reads_bytes (β := β) (littleEndian size.bytes value)
  rw [little_endian_length] at bytes
  apply bytes.returning
  intro read same
  rw [same]
  exact to_rpc_byte_order_read host size value fits palindrome

theorem takes_numeric (host : Host) {size : Size} {bytes : List UInt8}
    (whole : bytes.length = size.bytes) :
    Reads IByteStream.Holds (readNumeric host size : StreamM (IByteStream β) Nat) bytes (fun _ => True) := by
  have reads := IByteStream.reads_bytes (β := β) bytes
  rw [whole] at reads
  exact reads.returning fun _ _ => trivial

def numberBytes (host : Host) : (type : NumericType) → type.Value → List UInt8
  | .bool, value => [if value then 1 else 0]
  | .int8, value => [value.toUInt8]
  | .uint8, value => [value]
  | .int16, value => numericBytes host .two value.toUInt16.toNat
  | .uint16, value => numericBytes host .two value.toNat
  | .int32, value => numericBytes host .four value.toUInt32.toNat
  | .uint32, value => numericBytes host .four value.toNat
  | .int64, value => numericBytes host .eight value.toUInt64.toNat
  | .uint64, value => numericBytes host .eight value.toNat
  | .float32, value => numericBytes host .four value.toNat

theorem number_bytes_little (type : NumericType) (value : type.Value) :
    numberBytes .little type value = type.encode value := by
  cases type with
  | bool | int8 | uint8 | int16 | uint16 | int32 | uint32 | int64 | uint64 | float32 => rfl

theorem number_bytes_iff (type : NumericType) (value : type.Value) :
    numberBytes .big type value = type.encode value ↔ (type.encode value).Palindrome := by
  cases type with
  | bool | int8 | uint8 => exact iff_of_true rfl (.singleton _)
  | int16 | uint16 => exact numeric_bytes_iff .two _
  | int32 | uint32 | float32 => exact numeric_bytes_iff .four _
  | int64 | uint64 => exact numeric_bytes_iff .eight _

theorem number_bytes_same_length (host : Host) (type : NumericType) (value : type.Value) :
    (numberBytes host type value).length = (type.encode value).length := by
  cases type with
  | bool | int8 | uint8 => rfl
  | int16 | uint16 => exact numeric_bytes_same_length host .two _
  | int32 | uint32 | float32 => exact numeric_bytes_same_length host .four _
  | int64 | uint64 => exact numeric_bytes_same_length host .eight _

theorem writes_number (host : Host) (type : NumericType) (value : type.Value) :
    Writes OByteStream.Holds (writeNumber host type value : StreamM (OByteStream β) Unit)
      (numberBytes host type value) := by
  cases type with
  | bool | int8 | uint8 => exact OByteStream.writes_byte _
  | int16 | uint16 | int32 | uint32 | int64 | uint64 | float32 => exact writes_numeric host _ _

theorem reads_number (host : Host) (type : NumericType) (value : type.Value)
    (palindrome : (type.encode value).Palindrome) :
    Reads IByteStream.Holds (readNumber host type : StreamM (IByteStream β) type.Value)
      (type.encode value) (fun read => read = value) := by
  cases type with
  | bool => exact NumericType.reads .bool 1 value
  | int8 => exact NumericType.reads .int8 8 value
  | uint8 => exact NumericType.reads .uint8 8 value
  | int16 =>
      apply (reads_numeric host .two value.toUInt16.toNat (UInt16.toNat_lt _) palindrome).map
      rintro _ rfl
      rw [UInt16.ofNat_toNat]
      exact Int16.toInt16_toUInt16 value
  | uint16 =>
      apply (reads_numeric host .two value.toNat (UInt16.toNat_lt _) palindrome).map
      rintro _ rfl
      exact UInt16.ofNat_toNat
  | int32 =>
      apply (reads_numeric host .four value.toUInt32.toNat (UInt32.toNat_lt _) palindrome).map
      rintro _ rfl
      rw [UInt32.ofNat_toNat]
      exact Int32.toInt32_toUInt32 value
  | uint32 | float32 =>
      apply (reads_numeric host .four (UInt32.toNat value) (UInt32.toNat_lt _) palindrome).map
      rintro _ rfl
      exact UInt32.ofNat_toNat
  | int64 =>
      apply (reads_numeric host .eight value.toUInt64.toNat (UInt64.toNat_lt _) palindrome).map
      rintro _ rfl
      rw [UInt64.ofNat_toNat]
      exact Int64.toInt64_toUInt64 value
  | uint64 =>
      apply (reads_numeric host .eight value.toNat (UInt64.toNat_lt _) palindrome).map
      rintro _ rfl
      exact UInt64.ofNat_toNat

theorem takes_number (host : Host) (type : NumericType) (value : type.Value) :
    Reads IByteStream.Holds (readNumber host type : StreamM (IByteStream β) type.Value)
      (type.encode value) (fun _ => True) := by
  cases type with
  | bool | int8 => exact (IByteStream.reads_byte _).map fun _ _ => trivial
  | uint8 => exact (IByteStream.reads_byte _).imp fun _ _ => trivial
  | int16 | uint16 | int32 | uint32 | int64 | uint64 | float32 =>
      exact (takes_numeric host (little_endian_length _ _)).map fun _ _ => trivial

end Items

section LittleEndian

variable {β : Type} [StreamBuffer β]

/-- On a little-endian host these are the streams and the headers of the other modules. -/
theorem write_number_little (type : NumericType) (bits : Nat) (value : type.Value) :
    (writeNumber .little type value : StreamM (OByteStream β) Unit) = type.write bits value := by
  cases type with
  | bool | int8 | uint8 | int16 | uint16 | int32 | uint32 | int64 | uint64 | float32 => rfl

theorem read_number_little (type : NumericType) (bits : Nat) :
    (readNumber .little type : StreamM (IByteStream β) type.Value) = type.read bits := by
  cases type with
  | bool | int8 | uint8 | int16 | uint16 | int32 | uint32 | int64 | uint64 | float32 => rfl

theorem write_enum_little (value : UInt64) (bitCount : Nat) :
    (writeEnum .little value bitCount : StreamM (OByteStream β) Unit) =
      OStream.writeEnum value bitCount := rfl

theorem put_little (header : Sgp.CsPacketHeader) (rest : List UInt8) :
    put .little .two header.bodySize.toNat (0 :: 0 :: rest) = header.write.take 2 ++ rest := rfl

theorem get_little (buffer : List UInt8) :
    UInt16.ofNat (get .little .two buffer) = (Sgp.CsPacketHeader.read buffer).bodySize := rfl

end LittleEndian

namespace ItemType

def encode : (type : ItemType) → type.Value → List UInt8
  | number type, value => type.encode value
  | enum type, value => littleEndian type.bytes (type.toCarrier value).toNat
  | bodySize, value => littleEndian 2 value.toNat

def bytesOn (host : Host) : (type : ItemType) → type.Value → List UInt8
  | number type, value => numberBytes host type value
  | enum type, value => (host.memory 8 (type.toCarrier value).toNat).take (toBytes type.bitSize)
  | bodySize, value => put host .two value.toNat (List.replicate 2 0)

/-- The bytes need no order, and an enumeration fills the variable that carries it. -/
def Symmetric : (type : ItemType) → type.Value → Prop
  | number type, value => (type.encode value).Palindrome
  | enum type, value => type.bytes = 8 ∧ (littleEndian 8 (type.toCarrier value).toNat).Palindrome
  | bodySize, value => (littleEndian 2 value.toNat).Palindrome

def Wide : ItemType → Prop
  | number _ => True
  | enum type => type.bytes = 8
  | bodySize => True

theorem Symmetric.wide {type : ItemType} {value : type.Value} (symmetric : type.Symmetric value) :
    type.Wide := by
  cases type with
  | number type => trivial
  | enum type => exact symmetric.1
  | bodySize => trivial

theorem put_body_size (host : Host) (value : Nat) :
    put host .two value (List.replicate 2 0) = numericBytes host .two value := List.append_nil _

theorem enum_width (type : EnumType) : type.bytes ≤ 8 := by
  have valid := type.valid
  simp only [List.mem_cons, List.not_mem_nil, or_false] at valid
  omega

theorem bytes_on_little (type : ItemType) (value : type.Value) :
    type.bytesOn .little value = type.encode value := by
  cases type with
  | number type => exact number_bytes_little type value
  | enum type => exact enum_bytes type value
  | bodySize => exact put_body_size .little _

theorem bytes_on_same_length (type : ItemType) (value : type.Value) :
    (type.bytesOn .big value).length = (type.encode value).length := by
  cases type with
  | number type => exact number_bytes_same_length .big type value
  | enum type =>
      rw [bytesOn, encode, List.length_take, Host.memory_length, little_endian_length, enum_size]
      exact Nat.min_eq_left (enum_width type)
  | bodySize =>
      rw [bytesOn, put_body_size]
      exact numeric_bytes_same_length .big .two _

theorem bytes_on_big_iff (type : ItemType) (value : type.Value) (wide : type.Wide) :
    type.bytesOn .big value = type.encode value ↔ type.Symmetric value := by
  cases type with
  | number type => exact number_bytes_iff type value
  | enum type =>
      have eight : type.bytes = 8 := wide
      have whole : (Host.big.memory 8 (type.toCarrier value).toNat).take 8 =
          Host.big.memory 8 (type.toCarrier value).toNat :=
        List.take_of_length_le (Nat.le_of_eq (Host.memory_length _ _ _))
      rw [bytesOn, encode, enum_size, eight, whole, Symmetric, List.Palindrome.iff_reverse_eq]
      exact (and_iff_right eight).symm
  | bodySize =>
      rw [bytesOn, put_body_size]
      exact numeric_bytes_iff .two _

variable {β : Type} [FifoBuffer β]

theorem writes (host : Host) (type : ItemType) (value : type.Value) :
    Writes OByteStream.Holds (type.write host value : StreamM (OByteStream β) Unit)
      (type.bytesOn host value) := by
  cases type with
  | number type => exact writes_number host type value
  | enum type => exact OByteStream.writes_bytes _
  | bodySize => exact OByteStream.writes_bytes _

theorem bytes_on_symmetric (host : Host) {type : ItemType} {value : type.Value}
    (symmetric : type.Symmetric value) : type.bytesOn host value = type.encode value := by
  cases host with
  | little => exact bytes_on_little type value
  | big => exact (bytes_on_big_iff type value symmetric.wide).mpr symmetric

theorem of_carrier_to_carrier (type : EnumType) (value : BitVec type.bitSize) :
    type.ofCarrier (type.toCarrier value) = value := by
  apply BitVec.eq_of_toNat_eq
  rw [EnumType.ofCarrier, BitVec.toNat_setWidth, UInt64.toNat_toBitVec, EnumType.carrier_mod]

theorem reads_enum_carrier (host : Host) (uninitialized : UInt64) (type : EnumType) {bytes : List UInt8}
    (whole : bytes.length = type.bytes) :
    Reads IByteStream.Holds ((enum type).read host uninitialized : StreamM (IByteStream β) _) bytes
      (fun read => read = type.ofCarrier (UInt64.ofNat
        (host.ofMemory (bytes ++ (host.memory 8 uninitialized.toNat).drop type.bytes)))) := by
  have reads := IByteStream.reads_bytes (β := β) bytes
  rw [whole] at reads
  have carrier : Reads IByteStream.Holds (readEnum host uninitialized type.bitSize :
      StreamM (IByteStream β) UInt64) bytes (fun read => read = UInt64.ofNat
        (host.ofMemory (bytes ++ (host.memory 8 uninitialized.toNat).drop type.bytes))) := by
    unfold readEnum
    rw [enum_size]
    apply reads.returning
    rintro _ rfl
    rfl
  apply carrier.returning
  rintro _ rfl
  rfl

theorem reads (host : Host) (uninitialized : UInt64) {type : ItemType} {value : type.Value}
    (symmetric : type.Symmetric value) :
    Reads IByteStream.Holds (type.read host uninitialized : StreamM (IByteStream β) type.Value)
      (type.encode value) (fun read => read = value) := by
  cases type with
  | number type => exact reads_number host type value symmetric
  | enum type =>
      obtain ⟨eight, palindrome⟩ := symmetric
      apply (reads_enum_carrier host uninitialized type (little_endian_length _ _)).imp
      rintro _ rfl
      have all : (host.memory 8 uninitialized.toNat).drop 8 = [] :=
        List.drop_of_length_le (Nat.le_of_eq (Host.memory_length _ _ _))
      have carrier : ofLittleEndian (littleEndian 8 (type.toCarrier value).toNat) =
          (type.toCarrier value).toNat := by
        rw [of_little_endian_little_endian]
        exact Nat.mod_eq_of_lt (UInt64.toNat_lt _)
      rw [eight, all, List.append_nil, Host.ofMemory, Host.order_palindrome host palindrome, carrier,
        UInt64.ofNat_toNat]
      exact of_carrier_to_carrier type value
  | bodySize =>
      have bytes := IByteStream.reads_bytes (β := β) (littleEndian 2 value.toNat)
      rw [little_endian_length] at bytes
      apply bytes.returning
      rintro _ rfl
      have header : (littleEndian 2 value.toNat).take Size.two.bytes = littleEndian 2 value.toNat :=
        List.take_of_length_le (Nat.le_of_eq (little_endian_length _ _))
      have number : toRpcByteOrder host .two (host.ofMemory (littleEndian 2 value.toNat)) = value.toNat :=
        to_rpc_byte_order_read host .two value.toNat (UInt16.toNat_lt value) symmetric
      rw [get, header, number, UInt16.ofNat_toNat]

theorem reads_little (uninitialized : UInt64) (type : ItemType) (value : type.Value) :
    Reads IByteStream.Holds (type.read .little uninitialized : StreamM (IByteStream β) type.Value)
      (type.encode value) (fun read => read = value) := by
  cases type with
  | number type =>
      change Reads _ (readNumber .little type) _ _
      rw [read_number_little type 8]
      exact NumericType.reads type 8 value
  | enum type =>
      apply (reads_enum_carrier .little uninitialized type (little_endian_length _ _)).imp
      rintro _ rfl
      have carrierBits : 2 ^ type.bitSize ∣ 2 ^ 64 := Nat.pow_dvd_pow 2 type.bit_size_valid.2
      apply BitVec.eq_of_toNat_eq
      rw [Host.ofMemory, Host.order, of_little_endian_append, little_endian_length,
        of_little_endian_little_endian, EnumType.ofCarrier, BitVec.toNat_setWidth, UInt64.toNat_toBitVec,
        UInt64.toNat_ofNat', Nat.mod_mod_of_dvd _ carrierBits, enum_range, Nat.add_mul_mod_self_left,
        Nat.mod_mod, EnumType.carrier_mod]
  | bodySize =>
      have bytes := IByteStream.reads_bytes (β := β) (littleEndian 2 value.toNat)
      rw [little_endian_length] at bytes
      apply bytes.returning
      rintro _ rfl
      have header : (littleEndian 2 value.toNat).take Size.two.bytes = littleEndian 2 value.toNat :=
        List.take_of_length_le (Nat.le_of_eq (little_endian_length _ _))
      have fits : value.toNat % 256 ^ 2 = value.toNat := Nat.mod_eq_of_lt (UInt16.toNat_lt value)
      rw [get, header, toRpcByteOrder, Host.ofMemory, Host.order, of_little_endian_little_endian, fits,
        UInt16.ofNat_toNat]

/-- Something is read from the bytes of any value. -/
theorem takes (host : Host) (uninitialized : UInt64) (type : ItemType) (value : type.Value) :
    Reads IByteStream.Holds (type.read host uninitialized : StreamM (IByteStream β) type.Value)
      (type.encode value) (fun _ => True) := by
  cases type with
  | number type => exact takes_number host type value
  | enum type =>
      apply (reads_enum_carrier host uninitialized type (little_endian_length _ _)).imp
      intro _ _
      trivial
  | bodySize =>
      have bytes := IByteStream.reads_bytes (β := β) (littleEndian 2 value.toNat)
      rw [little_endian_length] at bytes
      exact bytes.returning fun _ _ => trivial

/-- On a big-endian host the low byte of a narrow enumeration is not read at all. -/
theorem narrow_enum_low_byte (uninitialized : UInt64) (type : EnumType) (narrow : type.bytes ≠ 8)
    (value : BitVec type.bitSize) :
    Reads IByteStream.Holds ((enum type).read .big uninitialized : StreamM (IByteStream β) _)
      ((enum type).encode value)
      (fun read => BitVec.toNat read % 256 = uninitialized.toNat % 256) := by
  apply (reads_enum_carrier .big uninitialized type (little_endian_length _ _)).imp
  rintro _ rfl
  obtain ⟨more, width⟩ := Nat.exists_eq_add_of_lt (Nat.lt_of_le_of_ne (enum_width type) narrow)
  have kept : (Host.big.memory 8 uninitialized.toNat).drop type.bytes =
      (UInt8.ofNat uninitialized.toNat ::
        (littleEndian 7 (uninitialized.toNat / 256)).take more).reverse := by
    have count : (littleEndian 8 uninitialized.toNat).length - type.bytes = more + 1 := by
      rw [little_endian_length]
      omega
    rw [Host.memory, Host.order, List.drop_reverse, count]
    rfl
  have first : ∀ rest, (ofLittleEndian (UInt8.ofNat uninitialized.toNat :: rest)) % 256 =
      uninitialized.toNat % 256 := by
    intro rest
    rw [ofLittleEndian, UInt8.toNat_ofNat']
    omega
  have carrierBytes : 256 ∣ 2 ^ 64 := by decide
  have enumBytes : 256 ∣ 2 ^ type.bitSize := by
    rw [← enum_range]
    have valid := type.bit_size_valid.1
    exact dvd_pow_self 256 (by unfold EnumType.bitSize at valid; rintro zero; rw [zero] at valid; omega)
  rw [kept, Host.ofMemory, Host.order, List.reverse_append, List.reverse_reverse, List.cons_append,
    EnumType.ofCarrier, BitVec.toNat_setWidth, Nat.mod_mod_of_dvd _ enumBytes, UInt64.toNat_toBitVec,
    UInt64.toNat_ofNat', Nat.mod_mod_of_dvd _ carrierBytes]
  exact first _

theorem wide_of_read {type : ItemType} {value : type.Value}
    (restored : ∀ uninitialized : UInt64, ∃ (before after : IByteStream β) (rest : List UInt8),
      before.Holds (type.encode value ++ rest) ∧ Runs (type.read .big uninitialized) before value after) :
    type.Wide := by
  cases type with
  | number type => trivial
  | bodySize => trivial
  | enum type =>
      by_contra narrow
      have low : ∀ uninitialized : UInt64, BitVec.toNat value % 256 = uninitialized.toNat % 256 := by
        intro uninitialized
        obtain ⟨before, after, rest, held, runs⟩ := restored uninitialized
        obtain ⟨read, _, reads, byte, _⟩ :=
          narrow_enum_low_byte uninitialized type narrow value before rest held
        obtain ⟨same, _⟩ := reads.unique runs
        rw [same] at byte
        exact byte
      have zero := low 0
      have one := low 1
      rw [zero] at one
      exact absurd one (by decide)

end ItemType

section Sequences

theorem writes_items {β : Type} [FifoBuffer β] (host : Host) (items : List Item) :
    Writes OByteStream.Holds (writeItems host items : StreamM (OByteStream β) Unit)
      (items.flatMap fun item => item.1.bytesOn host item.2) :=
  writes_each fun item _ => item.1.writes host item.2

def encodeItems (items : List Item) : List UInt8 := items.flatMap fun item => item.1.encode item.2

theorem bytes_on_little_items (items : List Item) :
    (items.flatMap fun item => item.1.bytesOn .little item.2) = encodeItems items := by
  unfold encodeItems
  congr 1
  funext item
  exact item.1.bytes_on_little item.2

theorem bytes_on_big_items {items : List Item}
    (same : (items.flatMap fun item => item.1.bytesOn .big item.2) = encodeItems items) :
    ∀ item ∈ items, item.1.bytesOn .big item.2 = item.1.encode item.2 := by
  induction items with
  | nil => exact List.forall_mem_nil _
  | cons item rest induction =>
      rw [encodeItems, List.flatMap_cons, List.flatMap_cons] at same
      obtain ⟨first, others⟩ := List.append_inj same (item.1.bytes_on_same_length item.2)
      exact List.forall_mem_cons.mpr ⟨first, induction others⟩

theorem bytes_on_symmetric_items (host : Host) {items : List Item}
    (symmetric : ∀ item ∈ items, item.1.Symmetric item.2) :
    (items.flatMap fun item => item.1.bytesOn host item.2) = encodeItems items := by
  induction items with
  | nil => rfl
  | cons item rest induction =>
      obtain ⟨first, others⟩ := List.forall_mem_cons.mp symmetric
      rw [List.flatMap_cons, induction others, ItemType.bytes_on_symmetric host first]
      rfl

theorem reads_items {γ : Type} [FifoBuffer γ] (host : Host) (uninitialized : Nat → UInt64) (index : Nat)
    {items : List Item} (each : ∀ item ∈ items, ∀ uninitialized : UInt64,
      Reads IByteStream.Holds (item.1.read host uninitialized : StreamM (IByteStream γ) _)
        (item.1.encode item.2) (fun read => read = item.2)) :
    Reads IByteStream.Holds (readItems host uninitialized index (items.map Sigma.fst) :
      StreamM (IByteStream γ) (List Item)) (encodeItems items) (fun read => read = items) := by
  induction items generalizing index with
  | nil => exact reads_pure rfl
  | cons item rest induction =>
      obtain ⟨first, others⟩ := List.forall_mem_cons.mp each
      apply (first (uninitialized index)).bind
      rintro _ rfl
      apply (induction (index + 1) others).returning
      rintro _ rfl
      rfl

/-- If values come back on a big-endian host whatever its stack holds, no enumeration among them is
narrow. -/
theorem read_items_wide {γ : Type} [FifoBuffer γ] {items : List Item} {index : Nat}
    (restored : ∀ uninitialized : UInt64, ∃ before after : IByteStream γ,
      IByteStream.Holds before (encodeItems items) ∧
      Runs (readItems .big (fun _ => uninitialized) index (items.map Sigma.fst)) before items after) :
    ∀ item ∈ items, item.1.Wide := by
  induction items generalizing index with
  | nil => exact List.forall_mem_nil _
  | cons item rest induction =>
      obtain ⟨type, value⟩ := item
      have split : ∀ uninitialized : UInt64, ∃ before middle after : IByteStream γ,
          IByteStream.Holds before (type.encode value ++ encodeItems rest) ∧
          Runs (type.read .big uninitialized) before value middle ∧
          Runs (readItems .big (fun _ => uninitialized) (index + 1) (rest.map Sigma.fst))
            middle rest after := by
        intro uninitialized
        obtain ⟨before, after, held, runs⟩ := restored uninitialized
        obtain ⟨read, middle, first, following⟩ := runs.of_bind
        obtain ⟨values, last, others, returned⟩ := following.of_bind
        obtain ⟨same, final⟩ := returned.unique (runs_pure _ _)
        cases same
        cases final
        exact ⟨before, middle, _, held, first, others⟩
      have first : type.Wide := by
        apply ItemType.wide_of_read (β := γ)
        intro uninitialized
        obtain ⟨before, middle, _, held, runs, _⟩ := split uninitialized
        exact ⟨before, middle, encodeItems rest, held, runs⟩
      have others : ∀ item ∈ rest, item.1.Wide := by
        apply induction
        intro uninitialized
        obtain ⟨before, middle, after, held, runs, following⟩ := split uninitialized
        obtain ⟨_, taken, takes, _, takenHeld⟩ := type.takes .big uninitialized value before _ held
        obtain ⟨_, same⟩ := takes.unique runs
        rw [same] at takenHeld
        exact ⟨middle, after, takenHeld, following⟩
      exact List.forall_mem_cons.mpr ⟨first, others⟩

end Sequences

/-- The bytes are the same on both hosts, and what either host has written is read back on
either host, whatever the stack of the reader holds. -/
structure Portable (items : List Item) : Prop where
  bytes : ∀ (β : Type) [FifoBuffer β] (host : Host),
    Writes OByteStream.Holds (writeItems host items : StreamM (OByteStream β) Unit) (encodeItems items)
  values : ∀ (β γ : Type) [FifoBuffer β] [FifoBuffer γ] (writer reader : Host)
    (uninitialized : Nat → UInt64) (before after : OByteStream β) (written : List UInt8),
    Runs (writeItems writer items) before () after →
    FifoBuffer.contents after.streamBuffer = FifoBuffer.contents before.streamBuffer ++ written →
    Reads IByteStream.Holds (readItems reader uninitialized 0 (items.map Sigma.fst) :
      StreamM (IByteStream γ) (List Item)) written (fun read => read = items)

theorem written_eq {β : Type} [FifoBuffer β] {program : StreamM (OByteStream β) Unit}
    {bytes written : List UInt8} {before after : OByteStream β}
    (writes : Writes OByteStream.Holds program bytes) (runs : Runs program before () after)
    (contents : FifoBuffer.contents after.streamBuffer =
      FifoBuffer.contents before.streamBuffer ++ written) : written = bytes := by
  obtain ⟨last, lastRuns, held⟩ := writes before _ rfl
  obtain ⟨_, same⟩ := lastRuns.unique runs
  rw [same, OByteStream.Holds, contents] at held
  exact List.append_cancel_left held

theorem portable_of_symmetric {items : List Item} (symmetric : ∀ item ∈ items, item.1.Symmetric item.2) :
    Portable items := by
  have alike : ∀ (β : Type) [FifoBuffer β] (host : Host), Writes OByteStream.Holds
      (writeItems host items : StreamM (OByteStream β) Unit) (encodeItems items) := by
    intro β _ host
    rw [← bytes_on_symmetric_items host symmetric]
    exact writes_items host items
  refine ⟨alike, ?_⟩
  intro β γ _ _ writer reader uninitialized before after written runs contents
  rw [written_eq (alike β writer) runs contents]
  apply reads_items
  intro item member found
  exact ItemType.reads reader found (symmetric item member)

/-- Between little-endian hosts every value comes back. -/
theorem little_endian_hosts_agree {β γ : Type} [FifoBuffer β] [FifoBuffer γ] (items : List Item)
    (uninitialized : Nat → UInt64) :
    Writes OByteStream.Holds (writeItems .little items : StreamM (OByteStream β) Unit)
    (encodeItems items) ∧
    Reads IByteStream.Holds (readItems .little uninitialized 0 (items.map Sigma.fst) :
      StreamM (IByteStream γ) (List Item)) (encodeItems items) (fun read => read = items) := by
  constructor
  · rw [← bytes_on_little_items]
    exact writes_items .little items
  · apply reads_items
    intro item _ found
    exact item.1.reads_little found item.2

theorem Portable.wide {items : List Item} (portable : Portable items) : ∀ item ∈ items, item.1.Wide := by
  have writes := writes_items (β := ByteQueue) .little items
  rw [bytes_on_little_items] at writes
  obtain ⟨after, runs, contents⟩ := writes (OByteStream.mk (ByteQueue.mk []) true) [] rfl
  apply read_items_wide (γ := ByteQueue)
  intro uninitialized
  let stream : IByteStream ByteQueue := IByteStream.mk (ByteQueue.mk (encodeItems items)) true
  have held : stream.Holds (encodeItems items ++ []) := (List.append_nil _).symm
  obtain ⟨read, last, readRuns, same, _⟩ := portable.values ByteQueue ByteQueue .little .big
    (fun _ => uninitialized) _ after (encodeItems items) runs contents stream [] held
  rw [same] at readRuns
  exact ⟨stream, last, rfl, readRuns⟩

/-- Numbers, enumerations and body sizes do not depend on the byte order of the hosts
exactly when each number reads the same from both ends and each enumeration has 8 bytes that
do. -/
theorem wire_format_portable_iff (items : List Item) :
    Portable items ↔ ∀ item ∈ items, item.1.Symmetric item.2 := by
  constructor
  · intro portable item member
    have start := OByteStream.mk (ByteQueue.mk []) true
    have expected := portable.bytes ByteQueue .big
    obtain ⟨after, runs, contents⟩ := writes_items (β := ByteQueue) .big items start _ rfl
    have same := written_eq expected runs contents
    apply (item.1.bytes_on_big_iff item.2 (portable.wide item member)).mp
    exact bytes_on_big_items same item member
  · exact portable_of_symmetric

/-- The number 0x0102 is written as 2, 1 on a little-endian host, and as 1, 1 on a
big-endian one. -/
theorem number_is_mirrored :
    (ItemType.number .uint16).bytesOn .little (0x0102 : UInt16) = [2, 1] ∧
    (ItemType.number .uint16).bytesOn .big (0x0102 : UInt16) = [1, 1] ∧
    ¬Portable [⟨.number .uint16, (0x0102 : UInt16)⟩] := by
  refine ⟨by decide, by decide, ?_⟩
  intro portable
  obtain ⟨after, runs, contents⟩ := writes_items (β := ByteQueue) .big
    [⟨.number .uint16, (0x0102 : UInt16)⟩] (OByteStream.mk (ByteQueue.mk []) true) _ rfl
  have same := written_eq (portable.bytes ByteQueue .big) runs contents
  exact absurd same (by decide)

end Sne.Srpc.HostByteOrder
