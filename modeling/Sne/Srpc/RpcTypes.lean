import Mathlib.Data.Fin.Tuple.Basic
import Sne.Core.ByteStream

/-!
# RPC types

The types of `RpcTypes.h`, the containers of `RpcContainers.h` and the requests of
`DatabaseRequest.h`, nested to any depth, with what their `serialize` methods write
and read. A reader is given the object that it reads into: the loop of a map reuses
one key and one value, and a `Param` keeps the fields that its type does not select.
The comparison of the elements of a set and of the keys of a map is a parameter.
-/

namespace Sne.Srpc

open Sne.Core Sne.Library.Exec Sne.Library.Codec

set_option autoImplicit false

/-- The numbers, with a `float32_t` as its bit pattern. -/
inductive NumericType where
  | bool
  | int8
  | uint8
  | int16
  | uint16
  | int32
  | uint32
  | int64
  | uint64
  | float32
deriving DecidableEq, Repr

namespace NumericType

abbrev Value : NumericType → Type
  | bool => Bool
  | int8 => Int8
  | uint8 => UInt8
  | int16 => Int16
  | uint16 => UInt16
  | int32 => Int32
  | uint32 => UInt32
  | int64 => Int64
  | uint64 => UInt64
  | float32 => UInt32

def initial : (type : NumericType) → type.Value
  | bool => false
  | int8 => 0
  | uint8 => 0
  | int16 => 0
  | uint16 => 0
  | int32 => 0
  | uint32 => 0
  | int64 => 0
  | uint64 => 0
  | float32 => 0

def write {σ : Type} [OStream σ] (bits : Nat) : (type : NumericType) → type.Value → StreamM σ Unit
  | bool, value => OStream.writeBool value bits
  | int8, value => OStream.writeInt8 value bits
  | uint8, value => OStream.writeUInt8 value bits
  | int16, value => OStream.writeInt16 value bits
  | uint16, value => OStream.writeUInt16 value bits
  | int32, value => OStream.writeInt32 value bits
  | uint32, value => OStream.writeUInt32 value bits
  | int64, value => OStream.writeInt64 value bits
  | uint64, value => OStream.writeUInt64 value bits
  | float32, value => OStream.writeFloat32 value bits

def read {σ : Type} [IStream σ] (bits : Nat) : (type : NumericType) → StreamM σ type.Value
  | bool => IStream.readBool bits
  | int8 => IStream.readInt8 bits
  | uint8 => IStream.readUInt8 bits
  | int16 => IStream.readInt16 bits
  | uint16 => IStream.readUInt16 bits
  | int32 => IStream.readInt32 bits
  | uint32 => IStream.readUInt32 bits
  | int64 => IStream.readInt64 bits
  | uint64 => IStream.readUInt64 bits
  | float32 => IStream.readFloat32 bits

end NumericType

section Containers

variable {α κ ν : Type}

/-- `SNE_DEFAULT_CONTAILER_SIZE_BITS`. -/
def defaultContainerSizeBits : Nat := charBit * 2

def maxContainerSize : Nat := maxNumber defaultContainerSizeBits

def containerSizeIsTooBig : Exception := .streaming "container size is too big"

/-- `serialize(OStream&)` of `RpcContainer` and `RBaseSet`. -/
def writeSequence {σ : Type} [OStream σ] (write : α → StreamM σ Unit) (values : List α) :
    StreamM σ Unit := do
  require (decide (values.length ≤ maxContainerSize)) containerSizeIsTooBig
  OStream.writeUInt16 (UInt16.ofNat values.length) defaultContainerSizeBits
  writeEach write (values.take maxContainerSize)

/-- `serialize(IStream&)` of `RpcContainer` and `RBaseSet`, with the container's own
way to put an element in. -/
def readSequence {σ : Type} [IStream σ] (insert : α → List α → List α) (read : StreamM σ α) :
    StreamM σ (List α) := do
  let size ← IStream.readUInt16 defaultContainerSizeBits
  require (decide (size.toNat ≤ maxContainerSize)) containerSizeIsTooBig
  repeatStep (fun container => do
    let rt ← read
    pure (insert rt container)) size.toNat []

def pushBack (value : α) (container : List α) : List α := container ++ [value]

/-- `insert` of `std::set` and `std::map`: an equivalent element stays as it is. -/
def insertUnique (less : α → α → Bool) (value : α) : List α → List α
  | [] => [value]
  | other :: rest =>
      if less other value then other :: insertUnique less value rest
      else if less value other then value :: other :: rest
      else other :: rest

/-- `insert` of `std::multiset` and `std::multimap`: behind the equivalent elements. -/
def insertEquivalent (less : α → α → Bool) (value : α) : List α → List α
  | [] => [value]
  | other :: rest =>
      if less value other then value :: other :: rest
      else other :: insertEquivalent less value rest

def writeMap {σ : Type} [OStream σ] (writeKey : κ → StreamM σ Unit) (writeValue : ν → StreamM σ Unit)
    (entries : List (κ × ν)) : StreamM σ Unit := do
  require (decide (entries.length ≤ maxContainerSize)) containerSizeIsTooBig
  OStream.writeUInt32 (UInt32.ofNat entries.length) defaultContainerSizeBits
  writeEach (fun entry => do
    writeKey entry.1
    writeValue entry.2) (entries.take maxContainerSize)

/-- `RBaseMap::serialize(IStream&)`, with the key and the value that its loop reuses. -/
def readMap {σ : Type} [IStream σ] (insert : κ × ν → List (κ × ν) → List (κ × ν))
    (readKey : κ → StreamM σ κ) (readValue : ν → StreamM σ ν) (key : κ) (value : ν) :
    StreamM σ (List (κ × ν)) := do
  let size ← IStream.readUInt32 defaultContainerSizeBits
  require (decide (size.toNat ≤ maxContainerSize)) containerSizeIsTooBig
  let (_, _, container) ← repeatStep (fun (key, value, container) => do
    let key ← readKey key
    let value ← readValue value
    pure (key, value, insert (key, value) container)) size.toNat (key, value, [])
  pure container

def writeArray {σ : Type} (write : α → StreamM σ Unit) :
    (size : Nat) → (Fin size → α) → StreamM σ Unit
  | 0, _ => pure ()
  | size + 1, values => do
      write (values 0)
      writeArray write size (fun index => values index.succ)

def readArray {σ : Type} (read : α → StreamM σ α) :
    (size : Nat) → (Fin size → α) → StreamM σ (Fin size → α)
  | 0, values => pure values
  | size + 1, values => do
      let first ← read (values 0)
      let others ← readArray read size (fun index => values index.succ)
      pure (Fin.cons first others)

end Containers

/-- `ParamType`. A cast from a byte can give a value without a name. -/
inductive ParamType where
  | unknown
  | int32
  | uint32
  | int64
  | uint64
  | string
  | wstring
  | other (byte : UInt8) (unnamed : 7 ≤ byte)
deriving DecidableEq, Repr

namespace ParamType

def toByte : ParamType → UInt8
  | unknown => 0
  | int32 => 1
  | uint32 => 2
  | int64 => 3
  | uint64 => 4
  | string => 5
  | wstring => 6
  | other byte _ => byte

def ofByte (byte : UInt8) : ParamType :=
  if unnamed : 7 ≤ byte then
    other byte unnamed
  else match byte with
    | 0 => unknown
    | 1 => int32
    | 2 => uint32
    | 3 => int64
    | 4 => uint64
    | 5 => string
    | _ => wstring

end ParamType

structure Param where
  type : ParamType
  int32Value : Int32
  uint32Value : UInt32
  int64Value : Int64
  uint64Value : UInt64
  stringValue : List UInt8
  wstringValue : List WChar
deriving DecidableEq, Repr

namespace Param

/-- The default constructor, with 0 for the members that it leaves alone. -/
def initial : Param :=
  { type := .unknown, int32Value := 0, uint32Value := 0, int64Value := 0, uint64Value := 0
    stringValue := [], wstringValue := [] }

def write {σ : Type} [OStream σ] (param : Param) : StreamM σ Unit := do
  OStream.writeUInt8 param.type.toByte 8
  match param.type with
  | .int32 => OStream.writeInt32 param.int32Value 32
  | .uint32 => OStream.writeUInt32 param.uint32Value 32
  | .int64 => OStream.writeInt64 param.int64Value 64
  | .uint64 => OStream.writeUInt64 param.uint64Value 64
  | .string => OStream.writeString param.stringValue ushrtMax 16
  | .wstring => OStream.writeWString param.wstringValue ushrtMax 16
  | .unknown => pure ()
  | .other _ _ => pure ()

def read {σ : Type} [IStream σ] (param : Param) : StreamM σ Param := do
  let byte ← IStream.readUInt8 8
  let type := ParamType.ofByte byte
  match type with
  | .int32 => do
      let int32Value ← IStream.readInt32 32
      pure { param with type, int32Value }
  | .uint32 => do
      let uint32Value ← IStream.readUInt32 32
      pure { param with type, uint32Value }
  | .int64 => do
      let int64Value ← IStream.readInt64 64
      pure { param with type, int64Value }
  | .uint64 => do
      let uint64Value ← IStream.readUInt64 64
      pure { param with type, uint64Value }
  | .string => do
      let stringValue ← IStream.readString ushrtMax 16
      pure { param with type, stringValue }
  | .wstring => do
      let wstringValue ← IStream.readWString ushrtMax 16
      pure { param with type, wstringValue }
  | .unknown => pure { param with type }
  | .other _ _ => pure { param with type }

def Same (left right : Param) : Prop :=
  left.type = right.type ∧
    match left.type with
    | .int32 => left.int32Value = right.int32Value
    | .uint32 => left.uint32Value = right.uint32Value
    | .int64 => left.int64Value = right.int64Value
    | .uint64 => left.uint64Value = right.uint64Value
    | .string => left.stringValue = right.stringValue
    | .wstring => left.wstringValue = right.wstringValue
    | .unknown => True
    | .other _ _ => True

/-- A valid type that is not that of wide strings. -/
def Valid (param : Param) : Prop :=
  match param.type with
  | .int32 => True
  | .uint32 => True
  | .int64 => True
  | .uint64 => True
  | .string => param.stringValue.length ≤ ushrtMax
  | .wstring => False
  | .unknown => False
  | .other _ _ => False

end Param

inductive RequestPriority where
  | lowest
  | low
  | normal
  | high
  | highest
  | other (byte : UInt8) (unnamed : 5 ≤ byte)
deriving DecidableEq, Repr

namespace RequestPriority

def toByte : RequestPriority → UInt8
  | lowest => 0
  | low => 1
  | normal => 2
  | high => 3
  | highest => 4
  | other byte _ => byte

def ofByte (byte : UInt8) : RequestPriority :=
  if unnamed : 5 ≤ byte then
    other byte unnamed
  else match byte with
    | 0 => lowest
    | 1 => low
    | 2 => normal
    | 3 => high
    | _ => highest

end RequestPriority

inductive RequestType where
  | unknown
  | storedProcedure
  | select
  | other (byte : UInt8) (unnamed : 3 ≤ byte)
deriving DecidableEq, Repr

namespace RequestType

def toByte : RequestType → UInt8
  | unknown => 0
  | storedProcedure => 1
  | select => 2
  | other byte _ => byte

def ofByte (byte : UInt8) : RequestType :=
  if unnamed : 3 ≤ byte then
    other byte unnamed
  else match byte with
    | 0 => unknown
    | 1 => storedProcedure
    | _ => select

end RequestType

structure ModifyRequest where
  priority : RequestPriority
  type : RequestType
  command : List UInt8
  params : List Param
deriving DecidableEq, Repr

namespace ModifyRequest

/-- `RShortString`. -/
def commandMaxLength : Nat := 255

def initial : ModifyRequest :=
  { priority := .lowest, type := .unknown, command := [], params := [] }

def write {σ : Type} [OStream σ] (request : ModifyRequest) : StreamM σ Unit := do
  OStream.writeUInt8 request.priority.toByte 8
  OStream.writeUInt8 request.type.toByte 8
  OStream.writeString request.command commandMaxLength 16
  writeSequence Param.write request.params

def read {σ : Type} [IStream σ] (_ : ModifyRequest) : StreamM σ ModifyRequest := do
  let priority ← IStream.readUInt8 8
  let type ← IStream.readUInt8 8
  let command ← IStream.readString commandMaxLength 16
  let params ← readSequence pushBack (Param.read Param.initial)
  pure { priority := .ofByte priority, type := .ofByte type, command, params }

def Same (left right : ModifyRequest) : Prop :=
  left.priority = right.priority ∧ left.type = right.type ∧ left.command = right.command ∧
    List.Forall₂ Param.Same left.params right.params

def Valid (request : ModifyRequest) : Prop :=
  request.command.length ≤ commandMaxLength ∧ request.params.length ≤ maxContainerSize ∧
    ∀ param ∈ request.params, param.Valid

end ModifyRequest

inductive RpcType where
  | number (type : NumericType) (bits : Nat)
  | string (maxLength sizeBits : Nat)
  | vector (element : RpcType)
  | list (element : RpcType)
  | set (element : RpcType)
  | multiSet (element : RpcType)
  | map (key value : RpcType)
  | multiMap (key value : RpcType)
  | array (size : Nat) (element : RpcType)
  | param
  | modifyRequest

namespace RpcType

/-- The elements of a set and the entries of a map, in the order of the container. -/
def Value : RpcType → Type
  | number type _ => type.Value
  | string _ _ => List UInt8
  | vector element => List element.Value
  | list element => List element.Value
  | set element => List element.Value
  | multiSet element => List element.Value
  | map key value => List (key.Value × value.Value)
  | multiMap key value => List (key.Value × value.Value)
  | array size element => Fin size → element.Value
  | param => Param
  | modifyRequest => ModifyRequest

def initial : (type : RpcType) → type.Value
  | number type _ => type.initial
  | string _ _ => ([] : List UInt8)
  | vector element => ([] : List element.Value)
  | list element => ([] : List element.Value)
  | set element => ([] : List element.Value)
  | multiSet element => ([] : List element.Value)
  | map key value => ([] : List (key.Value × value.Value))
  | multiMap key value => ([] : List (key.Value × value.Value))
  | array _ element => fun _ => initial element
  | param => Param.initial
  | modifyRequest => ModifyRequest.initial

def write {σ : Type} [OStream σ] : (type : RpcType) → type.Value → StreamM σ Unit
  | number type bits, value => type.write bits value
  | string maxLength sizeBits, value => OStream.writeString value maxLength sizeBits
  | vector element, values => writeSequence (write element) values
  | list element, values => writeSequence (write element) values
  | set element, values => writeSequence (write element) values
  | multiSet element, values => writeSequence (write element) values
  | map key value, entries => writeMap (write key) (write value) entries
  | multiMap key value, entries => writeMap (write key) (write value) entries
  | array size element, values => writeArray (write element) size values
  | param, value => Param.write value
  | modifyRequest, request => ModifyRequest.write request

/-- `std::less` for every type that is used as the element of a set or as a key. -/
abbrev Less := (type : RpcType) → type.Value → type.Value → Bool

def byKey {κ ν : Type} (less : κ → κ → Bool) (left right : κ × ν) : Bool := less left.1 right.1

def read {σ : Type} [IStream σ] (less : Less) : (type : RpcType) → type.Value → StreamM σ type.Value
  | number type bits, _ => type.read bits
  | string maxLength sizeBits, _ => IStream.readString maxLength sizeBits
  | vector element, _ => readSequence pushBack (read less element element.initial)
  | list element, _ => readSequence pushBack (read less element element.initial)
  | set element, _ =>
      readSequence (insertUnique (less element)) (read less element element.initial)
  | multiSet element, _ =>
      readSequence (insertEquivalent (less element)) (read less element element.initial)
  | map key value, _ => readMap (insertUnique (byKey (less key))) (read less key) (read less value)
      key.initial value.initial
  | multiMap key value, _ => readMap (insertEquivalent (byKey (less key))) (read less key)
      (read less value) key.initial value.initial
  | array size element, values => readArray (read less element) size values
  | param, value => Param.read value
  | modifyRequest, request => ModifyRequest.read request

end RpcType

end Sne.Srpc
