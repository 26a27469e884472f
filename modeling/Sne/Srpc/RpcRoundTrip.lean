import Mathlib.Data.List.Forall2
import Sne.Srpc.RpcTypes

/-!
# RPC values on the byte streams

What a type writes is read back as the same value from in front of any further
bytes. The proof follows the type. A set reads its elements in its own order, so
that each one is inserted behind those that are already there.
-/

namespace Sne.Srpc

open Sne.Core Sne.Library.Exec Sne.Library.Codec Sne.Library.Endian

set_option autoImplicit false

namespace NumericType

def encode : (type : NumericType) → type.Value → List UInt8
  | bool, value => [if value then 1 else 0]
  | int8, value => [value.toUInt8]
  | uint8, value => [value]
  | int16, value => littleEndian 2 value.toUInt16.toNat
  | uint16, value => littleEndian 2 value.toNat
  | int32, value => littleEndian 4 value.toUInt32.toNat
  | uint32, value => littleEndian 4 value.toNat
  | int64, value => littleEndian 8 value.toUInt64.toNat
  | uint64, value => littleEndian 8 value.toNat
  | float32, value => littleEndian 4 value.toNat

variable {β : Type} [FifoBuffer β]

theorem writes (type : NumericType) (bits : Nat) (value : type.Value) :
    Writes OByteStream.Holds (type.write bits value : StreamM (OByteStream β) Unit)
      (type.encode value) := by
  cases type with
  | bool => exact OByteStream.writes_byte _
  | int8 => exact OByteStream.writes_byte _
  | uint8 => exact OByteStream.writes_byte _
  | int16 => exact OByteStream.writes_numeric _ _
  | uint16 => exact OByteStream.writes_numeric _ _
  | int32 => exact OByteStream.writes_numeric _ _
  | uint32 => exact OByteStream.writes_numeric _ _
  | int64 => exact OByteStream.writes_numeric _ _
  | uint64 => exact OByteStream.writes_numeric _ _
  | float32 => exact OByteStream.writes_numeric _ _

theorem reads (type : NumericType) (bits : Nat) (value : type.Value) :
    Reads IByteStream.Holds (type.read bits : StreamM (IByteStream β) type.Value)
      (type.encode value) (fun read => read = value) := by
  cases type with
  | bool =>
      apply (IByteStream.reads_byte _).map
      rintro _ rfl
      cases value <;> rfl
  | int8 =>
      apply (IByteStream.reads_byte _).map
      rintro _ rfl
      exact Int8.toInt8_toUInt8 value
  | uint8 => exact IByteStream.reads_byte _
  | int16 =>
      apply (IByteStream.reads_numeric (UInt16.toNat_lt _)).map
      rintro _ rfl
      rw [UInt16.ofNat_toNat]
      exact Int16.toInt16_toUInt16 value
  | uint16 =>
      apply (IByteStream.reads_numeric (UInt16.toNat_lt _)).map
      rintro _ rfl
      rw [UInt16.ofNat_toNat]
  | int32 =>
      apply (IByteStream.reads_numeric (UInt32.toNat_lt _)).map
      rintro _ rfl
      rw [UInt32.ofNat_toNat]
      exact Int32.toInt32_toUInt32 value
  | uint32 =>
      apply (IByteStream.reads_numeric (UInt32.toNat_lt _)).map
      rintro _ rfl
      rw [UInt32.ofNat_toNat]
  | int64 =>
      apply (IByteStream.reads_numeric (UInt64.toNat_lt _)).map
      rintro _ rfl
      rw [UInt64.ofNat_toNat]
      exact Int64.toInt64_toUInt64 value
  | uint64 =>
      apply (IByteStream.reads_numeric (UInt64.toNat_lt _)).map
      rintro _ rfl
      rw [UInt64.ofNat_toNat]
  | float32 =>
      apply (IByteStream.reads_numeric (UInt32.toNat_lt _)).map
      rintro _ rfl
      rw [UInt32.ofNat_toNat]

end NumericType

section Containers

variable {α κ ν β : Type} [FifoBuffer β]

theorem insert_unique_appends {less : α → α → Bool} {value : α} {container : List α}
    (last : ∀ other ∈ container, less other value = true) :
    insertUnique less value container = container ++ [value] := by
  induction container with
  | nil => rfl
  | cons other rest induction =>
      rw [insertUnique, if_pos (last other (by simp)), induction fun later member =>
        last later (by simp [member])]
      rfl

theorem insert_equivalent_appends {less : α → α → Bool} {value : α} {container : List α}
    (last : ∀ other ∈ container, less value other = false) :
    insertEquivalent less value container = container ++ [value] := by
  induction container with
  | nil => rfl
  | cons other rest induction =>
      rw [insertEquivalent, if_neg (by simp [last other (by simp)]), induction fun later member =>
        last later (by simp [member])]
      rfl

def encodeSequence (encode : α → List UInt8) (values : List α) : List UInt8 :=
  littleEndian 2 values.length ++ values.flatMap encode

theorem max_container_size_eq : maxContainerSize = 65535 := rfl

theorem size16_exact {count : Nat} (few : count ≤ maxContainerSize) :
    (UInt16.ofNat count).toNat = count := by
  rw [max_container_size_eq] at few
  rw [UInt16.toNat_ofNat']
  omega

theorem size32_exact {count : Nat} (few : count ≤ maxContainerSize) :
    (UInt32.ofNat count).toNat = count := by
  rw [max_container_size_eq] at few
  rw [UInt32.toNat_ofNat']
  omega

theorem writes_sequence {write : α → StreamM (OByteStream β) Unit} {encode : α → List UInt8}
    {values : List α} (few : values.length ≤ maxContainerSize)
    (writes : ∀ value ∈ values, Writes OByteStream.Holds (write value) (encode value)) :
    Writes OByteStream.Holds (writeSequence write values) (encodeSequence encode values) := by
  have size := NumericType.writes (β := β) .uint16 defaultContainerSizeBits (UInt16.ofNat values.length)
  rw [NumericType.encode, size16_exact few] at size
  unfold writeSequence
  rw [List.take_of_length_le few]
  exact (writes_require (decide_eq_true few) _).bind (size.bind (writes_each writes))

theorem reads_sequence {insert : α → List α → List α} {read : StreamM (IByteStream β) α}
    {encode : α → List UInt8} {Same : α → α → Prop} {values : List α}
    (few : values.length ≤ maxContainerSize)
    (reads : ∀ value ∈ values, Reads IByteStream.Holds read (encode value) (Same value))
    (inserts : ∀ done value rest container rt, values = done ++ value :: rest →
      List.Forall₂ Same done container → Same value rt → insert rt container = container ++ [rt]) :
    Reads IByteStream.Holds (readSequence insert read) (encodeSequence encode values)
      (List.Forall₂ Same values) := by
  have size := NumericType.reads (β := β) .uint16 defaultContainerSizeBits (UInt16.ofNat values.length)
  rw [NumericType.encode, size16_exact few] at size
  apply size.bind
  rintro _ rfl
  rw [size16_exact few]
  apply (reads_require (decide_eq_true few) _).bind
  intro _ _
  apply reads_repeat (List.Forall₂ Same) _ List.Forall₂.nil
  intro done value rest container whole sofar
  apply (reads value (by simp [whole])).returning
  intro rt same
  rw [inserts done value rest container rt whole sofar same]
  exact List.rel_append sofar (.cons same .nil)

def encodeMap (encodeKey : κ → List UInt8) (encodeValue : ν → List UInt8) (entries : List (κ × ν)) :
    List UInt8 :=
  littleEndian 4 entries.length ++
    entries.flatMap fun entry => encodeKey entry.1 ++ encodeValue entry.2

theorem writes_map {writeKey : κ → StreamM (OByteStream β) Unit}
    {writeValue : ν → StreamM (OByteStream β) Unit} {encodeKey : κ → List UInt8}
    {encodeValue : ν → List UInt8} {entries : List (κ × ν)} (few : entries.length ≤ maxContainerSize)
    (writesKey : ∀ entry ∈ entries, Writes OByteStream.Holds (writeKey entry.1) (encodeKey entry.1))
    (writesValue : ∀ entry ∈ entries,
      Writes OByteStream.Holds (writeValue entry.2) (encodeValue entry.2)) :
    Writes OByteStream.Holds (writeMap writeKey writeValue entries)
      (encodeMap encodeKey encodeValue entries) := by
  have size := NumericType.writes (β := β) .uint32 defaultContainerSizeBits (UInt32.ofNat entries.length)
  rw [NumericType.encode, size32_exact few] at size
  unfold writeMap
  rw [List.take_of_length_le few]
  apply (writes_require (decide_eq_true few) _).bind (size.bind (writes_each _))
  intro entry member
  exact (writesKey entry member).bind (writesValue entry member)

theorem reads_map {insert : κ × ν → List (κ × ν) → List (κ × ν)}
    {readKey : κ → StreamM (IByteStream β) κ} {readValue : ν → StreamM (IByteStream β) ν}
    {encodeKey : κ → List UInt8} {encodeValue : ν → List UInt8} {SameKey : κ → κ → Prop}
    {SameValue : ν → ν → Prop} {entries : List (κ × ν)} (few : entries.length ≤ maxContainerSize)
    (readsKey : ∀ entry ∈ entries, ∀ key,
      Reads IByteStream.Holds (readKey key) (encodeKey entry.1) (SameKey entry.1))
    (readsValue : ∀ entry ∈ entries, ∀ value,
      Reads IByteStream.Holds (readValue value) (encodeValue entry.2) (SameValue entry.2))
    (inserts : ∀ done entry rest container next, entries = done ++ entry :: rest →
      List.Forall₂ (fun left right => SameKey left.1 right.1 ∧ SameValue left.2 right.2) done container →
      SameKey entry.1 next.1 → insert next container = container ++ [next]) (key : κ) (value : ν) :
    Reads IByteStream.Holds (readMap insert readKey readValue key value)
      (encodeMap encodeKey encodeValue entries)
      (List.Forall₂ (fun left right => SameKey left.1 right.1 ∧ SameValue left.2 right.2) entries) := by
  have size := NumericType.reads (β := β) .uint32 defaultContainerSizeBits (UInt32.ofNat entries.length)
  rw [NumericType.encode, size32_exact few] at size
  apply size.bind
  rintro _ rfl
  rw [size32_exact few]
  apply (reads_require (decide_eq_true few) _).bind
  intro _ _
  apply Reads.returning
  · apply reads_repeat (fun done (state : κ × ν × List (κ × ν)) =>
      List.Forall₂ (fun left right => SameKey left.1 right.1 ∧ SameValue left.2 right.2) done state.2.2)
    · intro done entry rest state whole sofar
      have member : entry ∈ entries := by simp [whole]
      apply (readsKey entry member state.1).bind
      intro nextKey sameKey
      apply (readsValue entry member state.2.1).returning
      intro nextValue sameValue
      rw [inserts done entry rest state.2.2 (nextKey, nextValue) whole sofar sameKey]
      exact List.rel_append sofar (.cons ⟨sameKey, sameValue⟩ .nil)
    · exact List.Forall₂.nil
  · intro state finished
    exact finished

def encodeArray (encode : α → List UInt8) : (size : Nat) → (Fin size → α) → List UInt8
  | 0, _ => []
  | size + 1, values => encode (values 0) ++ encodeArray encode size (fun index => values index.succ)

theorem writes_array {write : α → StreamM (OByteStream β) Unit} {encode : α → List UInt8}
    {size : Nat} {values : Fin size → α}
    (writes : ∀ index, Writes OByteStream.Holds (write (values index)) (encode (values index))) :
    Writes OByteStream.Holds (writeArray write size values) (encodeArray encode size values) := by
  induction size with
  | zero => exact writes_pure
  | succ size induction => exact (writes 0).bind (induction fun index => writes index.succ)

theorem reads_array {read : α → StreamM (IByteStream β) α} {encode : α → List UInt8}
    {Same : α → α → Prop} {size : Nat} {values : Fin size → α}
    (reads : ∀ index old, Reads IByteStream.Holds (read old) (encode (values index)) (Same (values index)))
    (old : Fin size → α) :
    Reads IByteStream.Holds (readArray read size old) (encodeArray encode size values)
      (fun read => ∀ index, Same (values index) (read index)) := by
  induction size with
  | zero => exact reads_pure (fun index => index.elim0)
  | succ size induction =>
      apply (reads 0 (old 0)).bind
      intro first sameFirst
      apply (induction (fun index => reads index.succ) fun index => old index.succ).returning
      intro others sameOthers index
      cases index using Fin.cases with
      | zero => exact sameFirst
      | succ index => exact sameOthers index

end Containers

section Requests

variable {β : Type} [FifoBuffer β]

theorem ParamType.of_byte_to_byte (type : ParamType) : ParamType.ofByte type.toByte = type := by
  cases type with
  | other byte unnamed =>
      rw [toByte, ofByte, dif_pos unnamed]
  | _ => rfl

theorem RequestPriority.of_byte_to_byte (priority : RequestPriority) :
    RequestPriority.ofByte priority.toByte = priority := by
  cases priority with
  | other byte unnamed =>
      rw [toByte, ofByte, dif_pos unnamed]
  | _ => rfl

theorem RequestType.of_byte_to_byte (type : RequestType) :
    RequestType.ofByte type.toByte = type := by
  cases type with
  | other byte unnamed =>
      rw [toByte, ofByte, dif_pos unnamed]
  | _ => rfl

namespace Param

def encodeField (param : Param) : List UInt8 :=
  match param.type with
  | .int32 => NumericType.encode .int32 param.int32Value
  | .uint32 => NumericType.encode .uint32 param.uint32Value
  | .int64 => NumericType.encode .int64 param.int64Value
  | .uint64 => NumericType.encode .uint64 param.uint64Value
  | .string => stringBytes 16 param.stringValue
  | .wstring => []
  | .unknown => []
  | .other _ _ => []

def encode (param : Param) : List UInt8 := [param.type.toByte] ++ param.encodeField

theorem string_size_field : SizeFieldValid ushrtMax 16 := ⟨.inr rfl, by decide⟩

theorem writes (param : Param) (valid : param.Valid) :
    Writes OByteStream.Holds (param.write : StreamM (OByteStream β) Unit) param.encode := by
  rcases param with ⟨type, int32Value, uint32Value, int64Value, uint64Value, stringValue, wstringValue⟩
  apply (OByteStream.writes_byte type.toByte).bind
  cases type with
  | int32 => exact NumericType.writes .int32 32 int32Value
  | uint32 => exact NumericType.writes .uint32 32 uint32Value
  | int64 => exact NumericType.writes .int64 64 int64Value
  | uint64 => exact NumericType.writes .uint64 64 uint64Value
  | string => exact writes_string string_size_field stringValue valid
  | wstring => exact valid.elim
  | unknown => exact valid.elim
  | other => exact valid.elim

theorem reads (param : Param) (valid : param.Valid) (old : Param) :
    Reads IByteStream.Holds (old.read : StreamM (IByteStream β) Param) param.encode param.Same := by
  rcases param with ⟨type, int32Value, uint32Value, int64Value, uint64Value, stringValue, wstringValue⟩
  apply (IByteStream.reads_byte type.toByte).bind
  rintro _ rfl
  rw [ParamType.of_byte_to_byte]
  cases type with
  | int32 =>
      apply (NumericType.reads .int32 32 int32Value).returning
      rintro _ rfl
      exact ⟨rfl, rfl⟩
  | uint32 =>
      apply (NumericType.reads .uint32 32 uint32Value).returning
      rintro _ rfl
      exact ⟨rfl, rfl⟩
  | int64 =>
      apply (NumericType.reads .int64 64 int64Value).returning
      rintro _ rfl
      exact ⟨rfl, rfl⟩
  | uint64 =>
      apply (NumericType.reads .uint64 64 uint64Value).returning
      rintro _ rfl
      exact ⟨rfl, rfl⟩
  | string =>
      apply (reads_string string_size_field stringValue valid).returning
      rintro _ rfl
      exact ⟨rfl, rfl⟩
  | wstring => exact valid.elim
  | unknown => exact valid.elim
  | other => exact valid.elim

end Param

namespace ModifyRequest

def encode (request : ModifyRequest) : List UInt8 :=
  [request.priority.toByte] ++ ([request.type.toByte] ++
    (stringBytes 16 request.command ++ encodeSequence Param.encode request.params))

theorem command_size_field : SizeFieldValid commandMaxLength 16 := ⟨.inr rfl, by decide⟩

theorem writes (request : ModifyRequest) (valid : request.Valid) :
    Writes OByteStream.Holds (request.write : StreamM (OByteStream β) Unit) request.encode := by
  rcases valid with ⟨short, few, params⟩
  apply (OByteStream.writes_byte request.priority.toByte).bind
  apply (OByteStream.writes_byte request.type.toByte).bind
  apply (writes_string command_size_field request.command short).bind
  exact writes_sequence few fun param member => param.writes (params param member)

theorem reads (request : ModifyRequest) (valid : request.Valid) (old : ModifyRequest) :
    Reads IByteStream.Holds (old.read : StreamM (IByteStream β) ModifyRequest) request.encode
      request.Same := by
  rcases valid with ⟨short, few, params⟩
  apply (IByteStream.reads_byte request.priority.toByte).bind
  rintro _ rfl
  apply (IByteStream.reads_byte request.type.toByte).bind
  rintro _ rfl
  apply (reads_string command_size_field request.command short).bind
  rintro _ rfl
  rw [RequestPriority.of_byte_to_byte, RequestType.of_byte_to_byte]
  apply Reads.returning
  · apply reads_sequence few (fun param member => param.reads (params param member) Param.initial)
    intro _ _ _ container rt _ _ _
    rfl
  · intro read same
    exact ⟨rfl, rfl, rfl, same⟩

end ModifyRequest

end Requests

namespace RpcType

/-- A type without a request. Only these have an `operator<`. -/
def Plain : RpcType → Prop
  | number _ _ => True
  | string _ _ => True
  | vector element => element.Plain
  | list element => element.Plain
  | set element => element.Plain
  | multiSet element => element.Plain
  | map key value => key.Plain ∧ value.Plain
  | multiMap key value => key.Plain ∧ value.Plain
  | array _ element => element.Plain
  | param => False
  | modifyRequest => False

/-- What the compiler asks of a type: strings with a size field for their maximal
length, and elements of sets and keys of maps that can be compared. -/
def WellFormed : RpcType → Prop
  | number _ _ => True
  | string maxLength sizeBits => SizeFieldValid maxLength sizeBits
  | vector element => element.WellFormed
  | list element => element.WellFormed
  | set element => element.Plain ∧ element.WellFormed
  | multiSet element => element.Plain ∧ element.WellFormed
  | map key value => key.Plain ∧ key.WellFormed ∧ value.WellFormed
  | multiMap key value => key.Plain ∧ key.WellFormed ∧ value.WellFormed
  | array _ element => element.WellFormed
  | param => True
  | modifyRequest => True

/-- Equal values, where of a `Param` only the selected field counts. -/
def Same : (type : RpcType) → type.Value → type.Value → Prop
  | number _ _, left, right => left = right
  | string _ _, left, right => left = right
  | vector element, left, right => List.Forall₂ (Same element) left right
  | list element, left, right => List.Forall₂ (Same element) left right
  | set element, left, right => List.Forall₂ (Same element) left right
  | multiSet element, left, right => List.Forall₂ (Same element) left right
  | map key value, left, right => List.Forall₂
      (fun first second => Same key first.1 second.1 ∧ Same value first.2 second.2) left right
  | multiMap key value, left, right => List.Forall₂
      (fun first second => Same key first.1 second.1 ∧ Same value first.2 second.2) left right
  | array _ element, left, right => ∀ index, Same element (left index) (right index)
  | param, left, right => Param.Same left right
  | modifyRequest, left, right => ModifyRequest.Same left right

/-- Strings and containers are not too long, sets and maps are in their order, and
requests are valid. -/
def Valid (less : Less) : (type : RpcType) → type.Value → Prop
  | number _ _, _ => True
  | string maxLength _, value => List.length value ≤ maxLength
  | vector element, values => List.length values ≤ maxContainerSize ∧
      ∀ value ∈ (show List element.Value from values), Valid less element value
  | list element, values => List.length values ≤ maxContainerSize ∧
      ∀ value ∈ (show List element.Value from values), Valid less element value
  | set element, values => List.length values ≤ maxContainerSize ∧
      (∀ value ∈ (show List element.Value from values), Valid less element value) ∧
      List.Pairwise (fun first second => less element first second = true) values
  | multiSet element, values => List.length values ≤ maxContainerSize ∧
      (∀ value ∈ (show List element.Value from values), Valid less element value) ∧
      List.Pairwise (fun first second => less element second first = false) values
  | map key value, entries => List.length entries ≤ maxContainerSize ∧
      (∀ entry ∈ (show List (key.Value × value.Value) from entries),
        Valid less key entry.1 ∧ Valid less value entry.2) ∧
      List.Pairwise (fun first second => less key first.1 second.1 = true) entries
  | multiMap key value, entries => List.length entries ≤ maxContainerSize ∧
      (∀ entry ∈ (show List (key.Value × value.Value) from entries),
        Valid less key entry.1 ∧ Valid less value entry.2) ∧
      List.Pairwise (fun first second => less key second.1 first.1 = false) entries
  | array _ element, values => ∀ index, Valid less element (values index)
  | param, value => Param.Valid value
  | modifyRequest, request => ModifyRequest.Valid request

def encode : (type : RpcType) → type.Value → List UInt8
  | number type _, value => type.encode value
  | string _ sizeBits, value => stringBytes sizeBits value
  | vector element, values => encodeSequence (encode element) values
  | list element, values => encodeSequence (encode element) values
  | set element, values => encodeSequence (encode element) values
  | multiSet element, values => encodeSequence (encode element) values
  | map key value, entries => encodeMap (encode key) (encode value) entries
  | multiMap key value, entries => encodeMap (encode key) (encode value) entries
  | array size element, values => encodeArray (encode element) size values
  | param, value => Param.encode value
  | modifyRequest, request => ModifyRequest.encode request

theorem forall_eq_same {α : Type} {Same : α → α → Prop}
    (equal : ∀ left right, Same left right → left = right)
    {left right : List α} (same : List.Forall₂ Same left right) : left = right := by
  induction same with
  | nil => rfl
  | cons first _ induction => rw [equal _ _ first, induction]

/-- Without requests, values that are the same are equal. -/
theorem eq_of_same (type : RpcType) (plain : type.Plain) (left right : type.Value)
    (same : type.Same left right) : left = right := by
  induction type with
  | number => exact same
  | string => exact same
  | vector element induction => exact forall_eq_same (induction plain) same
  | list element induction => exact forall_eq_same (induction plain) same
  | set element induction => exact forall_eq_same (induction plain) same
  | multiSet element induction => exact forall_eq_same (induction plain) same
  | map key value keyInduction valueInduction =>
      exact forall_eq_same (fun first second both => Prod.ext (keyInduction plain.1 _ _ both.1)
        (valueInduction plain.2 _ _ both.2)) same
  | multiMap key value keyInduction valueInduction =>
      exact forall_eq_same (fun first second both => Prod.ext (keyInduction plain.1 _ _ both.1)
        (valueInduction plain.2 _ _ both.2)) same
  | array size element induction =>
      funext index
      exact induction plain _ _ (same index)
  | param => exact plain.elim
  | modifyRequest => exact plain.elim

section Fifo

variable {β : Type} [FifoBuffer β]

theorem writes (less : Less) (type : RpcType) (wellFormed : type.WellFormed) (value : type.Value)
    (valid : type.Valid less value) :
    Writes OByteStream.Holds (type.write value : StreamM (OByteStream β) Unit) (type.encode value) := by
  induction type with
  | number type bits => exact type.writes bits value
  | string maxLength sizeBits => exact writes_string wellFormed value valid
  | vector element induction =>
      exact writes_sequence valid.1 fun item member => induction wellFormed item (valid.2 item member)
  | list element induction =>
      exact writes_sequence valid.1 fun item member => induction wellFormed item (valid.2 item member)
  | set element induction =>
      exact writes_sequence valid.1 fun item member =>
        induction wellFormed.2 item (valid.2.1 item member)
  | multiSet element induction =>
      exact writes_sequence valid.1 fun item member =>
        induction wellFormed.2 item (valid.2.1 item member)
  | map key value keyInduction valueInduction =>
      exact writes_map valid.1
        (fun entry member => keyInduction wellFormed.2.1 entry.1 (valid.2.1 entry member).1)
        (fun entry member => valueInduction wellFormed.2.2 entry.2 (valid.2.1 entry member).2)
  | multiMap key value keyInduction valueInduction =>
      exact writes_map valid.1
        (fun entry member => keyInduction wellFormed.2.1 entry.1 (valid.2.1 entry member).1)
        (fun entry member => valueInduction wellFormed.2.2 entry.2 (valid.2.1 entry member).2)
  | array size element induction =>
      exact writes_array fun index => induction wellFormed (value index) (valid index)
  | param => exact Param.writes value valid
  | modifyRequest => exact ModifyRequest.writes value valid

theorem before_of_pairwise {α : Type} {Before : α → α → Prop} {done rest : List α} {value : α}
    (ordered : List.Pairwise Before (done ++ value :: rest)) :
    ∀ other ∈ done, Before other value := by
  intro other member
  exact (List.pairwise_append.mp ordered).2.2 other member value (by simp)

theorem exists_same_of_mem {α : Type} {Same : α → α → Prop} {left right : List α}
    (same : List.Forall₂ Same left right) {second : α} (member : second ∈ right) :
    ∃ first ∈ left, Same first second := by
  induction same with
  | nil => cases member
  | cons head _ induction =>
      rcases List.mem_cons.mp member with rfl | later
      · exact ⟨_, by simp, head⟩
      · rcases induction later with ⟨first, among, both⟩
        exact ⟨first, by simp [among], both⟩

/-- What was read so far of a set stands before the next element. -/
theorem set_before {element : RpcType} (plain : element.Plain)
    {Before : element.Value → element.Value → Prop} {done rest container : List element.Value}
    {value rt : element.Value} (ordered : List.Pairwise Before (done ++ value :: rest))
    (sofar : List.Forall₂ element.Same done container) (same : element.Same value rt) :
    ∀ other ∈ container, Before other rt := by
  intro other member
  rw [← forall_eq_same (element.eq_of_same plain) sofar] at member
  rw [← element.eq_of_same plain value rt same]
  exact before_of_pairwise ordered other member

theorem map_before {key value : RpcType} (plain : key.Plain)
    (Before : key.Value → key.Value → Prop) {done rest container : List (key.Value × value.Value)}
    {entry next : key.Value × value.Value}
    (ordered : List.Pairwise (fun first second => Before first.1 second.1) (done ++ entry :: rest))
    (sofar : List.Forall₂ (fun first second => key.Same first.1 second.1 ∧
      value.Same first.2 second.2) done container) (same : key.Same entry.1 next.1) :
    ∀ other ∈ container, Before other.1 next.1 := by
  intro other member
  rcases exists_same_of_mem sofar member with ⟨first, among, sameFirst, _⟩
  rw [← key.eq_of_same plain _ _ sameFirst, ← key.eq_of_same plain _ _ same]
  exact before_of_pairwise ordered first among

theorem reads (less : Less) (type : RpcType) (wellFormed : type.WellFormed) (value : type.Value)
    (valid : type.Valid less value) (old : type.Value) :
    Reads IByteStream.Holds (type.read less old : StreamM (IByteStream β) type.Value)
      (type.encode value) (type.Same value) := by
  induction type with
  | number type bits =>
      intro stream rest held
      rcases type.reads bits value stream rest held with ⟨read, after, runs, same, remaining⟩
      exact ⟨read, after, runs, same.symm, remaining⟩
  | string maxLength sizeBits =>
      intro stream rest held
      rcases reads_string wellFormed value valid stream rest held with
        ⟨read, after, runs, same, remaining⟩
      exact ⟨read, after, runs, same.symm, remaining⟩
  | vector element induction =>
      apply reads_sequence valid.1
      · intro item member
        exact induction wellFormed item (valid.2 item member) element.initial
      · intro _ _ _ _ _ _ _ _
        rfl
  | list element induction =>
      apply reads_sequence valid.1
      · intro item member
        exact induction wellFormed item (valid.2 item member) element.initial
      · intro _ _ _ _ _ _ _ _
        rfl
  | set element induction =>
      rcases valid with ⟨few, elements, ordered⟩
      apply reads_sequence few
      · intro item member
        exact induction wellFormed.2 item (elements item member) element.initial
      · intro done item rest container rt whole sofar same
        rw [whole] at ordered
        exact insert_unique_appends (set_before wellFormed.1 ordered sofar same)
  | multiSet element induction =>
      rcases valid with ⟨few, elements, ordered⟩
      apply reads_sequence few
      · intro item member
        exact induction wellFormed.2 item (elements item member) element.initial
      · intro done item rest container rt whole sofar same
        rw [whole] at ordered
        exact insert_equivalent_appends (set_before wellFormed.1 ordered sofar same)
  | map key value keyInduction valueInduction =>
      rcases valid with ⟨few, elements, ordered⟩
      apply reads_map few
      · intro entry member old
        exact keyInduction wellFormed.2.1 entry.1 (elements entry member).1 old
      · intro entry member old
        exact valueInduction wellFormed.2.2 entry.2 (elements entry member).2 old
      · intro done entry rest container next whole sofar same
        rw [whole] at ordered
        exact insert_unique_appends (map_before wellFormed.1
          (fun first second => less key first second = true) ordered sofar same)
  | multiMap key value keyInduction valueInduction =>
      rcases valid with ⟨few, elements, ordered⟩
      apply reads_map few
      · intro entry member old
        exact keyInduction wellFormed.2.1 entry.1 (elements entry member).1 old
      · intro entry member old
        exact valueInduction wellFormed.2.2 entry.2 (elements entry member).2 old
      · intro done entry rest container next whole sofar same
        rw [whole] at ordered
        exact insert_equivalent_appends (map_before wellFormed.1
          (fun first second => less key second first = false) ordered sofar same)
  | array size element induction =>
      exact reads_array (fun index old => induction wellFormed (value index) (valid index) old) old
  | param => exact Param.reads value valid old
  | modifyRequest => exact ModifyRequest.reads value valid old

end Fifo

/-- The number of elements of a container with a size field. An array has none, and `serialize` of it
tests no size. -/
def containerSize : (type : RpcType) → type.Value → Option Nat
  | vector element, values => some (List.length (α := element.Value) values)
  | list element, values => some (List.length (α := element.Value) values)
  | set element, values => some (List.length (α := element.Value) values)
  | multiSet element, values => some (List.length (α := element.Value) values)
  | map key value, entries => some (List.length (α := key.Value × value.Value) entries)
  | multiMap key value, entries => some (List.length (α := key.Value × value.Value) entries)
  | _, _ => none

theorem oversized_sequence_throws {α σ : Type} [OStream σ] {write : α → StreamM σ Unit}
    {values : List α} (many : maxContainerSize < values.length) (stream : σ) :
    Throws (writeSequence write values) stream containerSizeIsTooBig stream :=
  (throws_require (decide_eq_false (Nat.not_le.mpr many)) _ stream).bind

theorem oversized_map_throws {κ ν σ : Type} [OStream σ] {writeKey : κ → StreamM σ Unit}
    {writeValue : ν → StreamM σ Unit} {entries : List (κ × ν)}
    (many : maxContainerSize < entries.length) (stream : σ) :
    Throws (writeMap writeKey writeValue entries) stream containerSizeIsTooBig stream :=
  (throws_require (decide_eq_false (Nat.not_le.mpr many)) _ stream).bind

theorem oversized_throws {σ : Type} [OStream σ] (type : RpcType) (value : type.Value) (size : Nat)
    (container : type.containerSize value = some size) (many : 65535 < size) (stream : σ) :
    Throws (type.write value) stream containerSizeIsTooBig stream := by
  cases type with
  | vector element =>
      cases container
      exact oversized_sequence_throws many stream
  | list element =>
      cases container
      exact oversized_sequence_throws many stream
  | set element =>
      cases container
      exact oversized_sequence_throws many stream
  | multiSet element =>
      cases container
      exact oversized_sequence_throws many stream
  | map key value =>
      cases container
      exact oversized_map_throws many stream
  | multiMap key value =>
      cases container
      exact oversized_map_throws many stream
  | _ => cases container

/-- What a well-formed type writes to a byte stream for a valid value is read back from
in front of any further bytes, into whatever object. A container with more elements
than its size field can count throws before it writes. -/
theorem rpc_values_round_trip {β γ : Type} [FifoBuffer β] [FifoBuffer γ] (less : Less)
    (type : RpcType) (wellFormed : type.WellFormed) (value : type.Value) :
    (type.Valid less value → ∃ bytes,
      (∀ ostream : OByteStream β, ∃ after, Runs (type.write value) ostream () after ∧
        FifoBuffer.contents after.streamBuffer =
          FifoBuffer.contents ostream.streamBuffer ++ bytes) ∧
      ∀ (istream : IByteStream γ) (old : type.Value) (rest : List UInt8),
        FifoBuffer.contents istream.streamBuffer = bytes ++ rest →
        ∃ read after, Runs (type.read less old) istream read after ∧ type.Same value read ∧
          (type.Plain → read = value) ∧ FifoBuffer.contents after.streamBuffer = rest) ∧
    ∀ size, type.containerSize value = some size → 65535 < size →
      ∀ ostream : OByteStream β, Throws (type.write value) ostream containerSizeIsTooBig ostream := by
  constructor
  · intro valid
    refine ⟨type.encode value, ?_, ?_⟩
    · intro ostream
      exact writes less type wellFormed value valid ostream _ rfl
    · intro istream old rest held
      rcases reads less type wellFormed value valid old istream rest held with
        ⟨read, after, runs, same, remaining⟩
      exact ⟨read, after, runs, same,
        fun plain => (type.eq_of_same plain value read same).symm, remaining⟩
  · intro size container many ostream
    exact oversized_throws type value size container many ostream

def stringLess : Less
  | string _ _, left, right => List.lex (α := UInt8) left right (fun x y => decide (x < y))
  | _, _, _ => false

theorem rpc_values_round_trip_nested :
    let type := map (string 255 16) (vector param)
    let text : Param := { Param.initial with type := .string, stringValue := [104, 105] }
    let amount : Param := { Param.initial with type := .uint64, uint64Value := 7 }
    let value : type.Value := ([([97], [text, amount]), ([98], [])] :
      List (List UInt8 × List Param))
    let long := List.replicate 65536 (0 : UInt8)
    (∃ bytes,
      (∀ ostream : OByteStream ByteQueue, ∃ after, Runs (type.write value) ostream () after ∧
        after.streamBuffer.items = ostream.streamBuffer.items ++ bytes) ∧
      ∀ (istream : IByteStream ByteQueue) (old : type.Value) (rest : List UInt8),
        istream.streamBuffer.items = bytes ++ rest →
        ∃ read after, Runs (type.read stringLess old) istream read after ∧ type.Same value read ∧
          (type.Plain → read = value) ∧ after.streamBuffer.items = rest) ∧
    ∀ ostream : OByteStream ByteQueue,
      Throws (write (vector (number .uint8 8)) long) ostream containerSizeIsTooBig ostream := by
  intro type text amount value long
  have wellFormed : type.WellFormed := ⟨trivial, ⟨.inr rfl, by decide⟩, trivial⟩
  have valid : type.Valid stringLess value := by
    refine ⟨by decide, ?_, ?_⟩
    · intro entry member
      rcases List.mem_cons.mp member with rfl | later
      · refine ⟨(by decide : 1 ≤ 255), (by decide : 2 ≤ maxContainerSize), ?_⟩
        intro param member
        rcases List.mem_cons.mp member with rfl | last
        · exact (by decide : 2 ≤ ushrtMax)
        · rw [List.mem_singleton.mp last]
          exact trivial
      · rw [List.mem_singleton.mp later]
        refine ⟨(by decide : 1 ≤ 255), (by decide : 0 ≤ maxContainerSize), ?_⟩
        intro param member
        cases member
    · apply List.Pairwise.cons _ (List.pairwise_singleton _ _)
      intro entry member
      rw [List.mem_singleton.mp member]
      rfl
  have length : long.length = 65536 := List.length_replicate
  clear_value long
  constructor
  · exact (rpc_values_round_trip (β := ByteQueue) (γ := ByteQueue) stringLess type wellFormed value).1 valid
  · exact (rpc_values_round_trip (β := ByteQueue) (γ := ByteQueue) stringLess
      (vector (.number .uint8 8)) trivial long).2 65536 (congrArg some length) (by decide)

def elementCount : (type : RpcType) → type.Value → Option Nat
  | array size _, _ => some size
  | type, value => type.containerSize value

theorem long_array_is_written :
    let type := array 65536 (number .uint8 8)
    let values : type.Value := fun _ => (0 : UInt8)
    ¬∀ size, type.elementCount values = some size → 65535 < size →
      ∀ ostream : OByteStream ByteQueue, ∃ e after, Throws (type.write values) ostream e after := by
  intro type values refused
  let ostream : OByteStream ByteQueue := { streamBuffer := ⟨[]⟩, shouldUseUtf8ForString := true }
  obtain ⟨e, after, throws⟩ := refused 65536 rfl (by decide) ostream
  obtain ⟨next, runs, _⟩ := writes stringLess type trivial values (fun _ => trivial) ostream _ rfl
  cases throws.symm.trans runs

end RpcType

end Sne.Srpc
