import Sne.Core.BitRoundTrip
import Sne.Srpc.RpcDispatch

/-!
# Commands on the byte streams and on the bit streams

On a byte stream the parameters are values of any well-formed type, and `align`
does nothing. On a bit stream they are integers of a width that holds them, and
`align` fills the last byte, so that each command starts and ends on a byte
boundary.
-/

namespace Sne.Srpc

open Sne.Core Sne.Library.Exec Sne.Library.Codec Sne.Library.Bits

set_option autoImplicit false

section Bytes

variable {β : Type} [FifoBuffer β]

namespace Arguments

def Valid (less : RpcType.Less) : (types : List RpcType) → Arguments types → Prop
  | [], _ => True
  | type :: rest, arguments =>
      type.WellFormed ∧ type.Valid less arguments.1 ∧ Valid less rest arguments.2

def encode : (types : List RpcType) → Arguments types → List UInt8
  | [], _ => []
  | type :: rest, arguments => type.encode arguments.1 ++ encode rest arguments.2

theorem writes (less : RpcType.Less) (types : List RpcType) (arguments : Arguments types)
    (valid : Valid less types arguments) :
    Writes OByteStream.Holds (write types arguments : StreamM (OByteStream β) Unit)
      (encode types arguments) := by
  induction types with
  | nil => exact writes_pure
  | cons type rest induction =>
      rcases valid with ⟨wellFormed, first, others⟩
      exact (RpcType.writes less type wellFormed arguments.1 first).bind
        (induction arguments.2 others)

theorem reads (less : RpcType.Less) (types : List RpcType) (arguments : Arguments types)
    (valid : Valid less types arguments) (old : Arguments types) :
    Reads IByteStream.Holds (read less types old : StreamM (IByteStream β) (Arguments types))
      (encode types arguments) (Same types arguments) := by
  induction types with
  | nil => exact reads_pure trivial
  | cons type rest induction =>
      rcases valid with ⟨wellFormed, first, others⟩
      apply (RpcType.reads less type wellFormed arguments.1 first old.1).bind
      intro read same
      apply (induction arguments.2 others old.2).returning
      intro readOthers sameOthers
      exact ⟨same, sameOthers⟩

end Arguments

namespace RpcCommand

def Valid (less : RpcType.Less) (command : RpcCommand) : Prop :=
  Arguments.Valid less command.types command.arguments

def encode (command : RpcCommand) : List UInt8 :=
  NumericType.encode .uint32 command.rpcId ++ Arguments.encode command.types command.arguments

theorem writes (less : RpcType.Less) (command : RpcCommand) (valid : command.Valid less) :
    Writes OByteStream.Holds (command.marshal : StreamM (OByteStream β) Unit) command.encode := by
  have arguments := Arguments.writes (β := β) less command.types command.arguments valid
  have padded := arguments.bind (writes_pure (ε := Exception))
  rw [List.append_nil] at padded
  exact (NumericType.writes .uint32 32 command.rpcId).bind padded

theorem readable (less : RpcType.Less) (command : RpcCommand) (valid : command.Valid less)
    (istream : IByteStream β) (rest : List UInt8) (held : istream.Holds (command.encode ++ rest)) :
    command.Readable less (fun after => after.Holds rest) istream := by
  rw [encode, List.append_assoc] at held
  rcases NumericType.reads .uint32 32 command.rpcId istream _ held with
    ⟨_, middle, readsId, rfl, middleHeld⟩
  refine ⟨middle, readsId, ?_⟩
  intro old
  rcases Arguments.reads less command.types command.arguments valid old middle rest middleHeld with
    ⟨arguments, last, reads, same, lastHeld⟩
  exact ⟨arguments, last, last, reads, same, runs_pure _ _, lastHeld⟩

end RpcCommand

end Bytes

section BitStreams

variable {β : Type} [FifoBuffer β]

namespace RpcType

/-- An integer of 8, 16 or 32 bits and a width that holds it, or one of 64 bits. -/
def BitValid : (type : RpcType) → type.Value → Prop
  | number .uint8 width, value => FieldType.Valid (.uint8 width) value
  | number .uint16 width, value => FieldType.Valid (.uint16 width) value
  | number .uint32 width, value => FieldType.Valid (.uint32 width) value
  | number .int8 width, value => FieldType.Valid (.int8 width) value
  | number .int16 width, value => FieldType.Valid (.int16 width) value
  | number .int32 width, value => FieldType.Valid (.int32 width) value
  | number .uint64 width, _ => width = 64
  | number .int64 width, _ => width = 64
  | _, _ => False

/-- Numbers take the same bits at every position. -/
def bits : (type : RpcType) → type.Value → List Bool
  | number .uint8 width, value => FieldType.bits 0 (.uint8 width) value
  | number .uint16 width, value => FieldType.bits 0 (.uint16 width) value
  | number .uint32 width, value => FieldType.bits 0 (.uint32 width) value
  | number .int8 width, value => FieldType.bits 0 (.int8 width) value
  | number .int16 width, value => FieldType.bits 0 (.int16 width) value
  | number .int32 width, value => FieldType.bits 0 (.int32 width) value
  | number .uint64 _, value => FieldType.bits 0 .uint64 value
  | number .int64 _, value => FieldType.bits 0 .int64 value
  | _, _ => []

theorem writes_bits (type : RpcType) (value : type.Value) (valid : type.BitValid value) :
    Writes OBitStream.Holds (type.write value : StreamM (OBitStream β) Unit) (type.bits value) := by
  intro stream written held
  cases type with
  | number type width =>
      cases type with
      | uint8 => exact write_field_appends (.uint8 width) value valid stream written held
      | uint16 => exact write_field_appends (.uint16 width) value valid stream written held
      | uint32 => exact write_field_appends (.uint32 width) value valid stream written held
      | int8 => exact write_field_appends (.int8 width) value valid stream written held
      | int16 => exact write_field_appends (.int16 width) value valid stream written held
      | int32 => exact write_field_appends (.int32 width) value valid stream written held
      | uint64 =>
          cases valid
          exact write_field_appends .uint64 value trivial stream written held
      | int64 =>
          cases valid
          exact write_field_appends .int64 value trivial stream written held
      | bool => exact valid.elim
      | float32 => exact valid.elim
  | _ => exact valid.elim

theorem reads_bits (less : Less) (type : RpcType) (value : type.Value) (valid : type.BitValid value)
    (old : type.Value) :
    Reads IBitStream.Remains (type.read less old : StreamM (IBitStream β) type.Value)
      (type.bits value) (fun read => read = value) := by
  intro stream rest held
  have whole : (stream.bitReadCount + (type.bits value ++ rest).length) % 8 = 0 := by
    have total := held.total
    omega
  have field : ∃ after, Runs (type.read less old) stream value after ∧ after.Remains rest := by
    cases type with
    | number type width =>
        cases type with
        | uint8 => exact read_field_takes (.uint8 width) value valid stream _ rest whole held
        | uint16 => exact read_field_takes (.uint16 width) value valid stream _ rest whole held
        | uint32 => exact read_field_takes (.uint32 width) value valid stream _ rest whole held
        | int8 => exact read_field_takes (.int8 width) value valid stream _ rest whole held
        | int16 => exact read_field_takes (.int16 width) value valid stream _ rest whole held
        | int32 => exact read_field_takes (.int32 width) value valid stream _ rest whole held
        | uint64 =>
            cases valid
            exact read_field_takes .uint64 value trivial stream _ rest whole held
        | int64 =>
            cases valid
            exact read_field_takes .int64 value trivial stream _ rest whole held
        | bool => exact valid.elim
        | float32 => exact valid.elim
    | _ => exact valid.elim
  rcases field with ⟨after, runs, remains⟩
  exact ⟨value, after, runs, rfl, remains⟩

theorem same_of_bit_valid (type : RpcType) (value : type.Value) (valid : type.BitValid value) :
    type.Same value value := by
  cases type with
  | number => rfl
  | _ => exact valid.elim

end RpcType

namespace Arguments

def BitValid : (types : List RpcType) → Arguments types → Prop
  | [], _ => True
  | type :: rest, arguments => type.BitValid arguments.1 ∧ BitValid rest arguments.2

def bits : (types : List RpcType) → Arguments types → List Bool
  | [], _ => []
  | type :: rest, arguments => type.bits arguments.1 ++ bits rest arguments.2

theorem writes_bits (types : List RpcType) (arguments : Arguments types)
    (valid : BitValid types arguments) :
    Writes OBitStream.Holds (write types arguments : StreamM (OBitStream β) Unit)
      (bits types arguments) := by
  induction types with
  | nil => exact writes_pure
  | cons type rest induction =>
      exact (RpcType.writes_bits type arguments.1 valid.1).bind (induction arguments.2 valid.2)

theorem reads_bits (less : RpcType.Less) (types : List RpcType) (arguments : Arguments types)
    (valid : BitValid types arguments) (old : Arguments types) :
    Reads IBitStream.Remains (read less types old : StreamM (IBitStream β) (Arguments types))
      (bits types arguments) (Same types arguments) := by
  induction types with
  | nil => exact reads_pure trivial
  | cons type rest induction =>
      apply (RpcType.reads_bits less type arguments.1 valid.1 old.1).bind
      rintro _ rfl
      apply (induction arguments.2 valid.2 old.2).returning
      intro readOthers sameOthers
      exact ⟨type.same_of_bit_valid _ valid.1, sameOthers⟩

end Arguments

namespace RpcCommand

def BitValid (command : RpcCommand) : Prop :=
  Arguments.BitValid command.types command.arguments

def fieldBits (command : RpcCommand) : List Bool :=
  RpcType.bits (.number .uint32 32) command.rpcId ++
    Arguments.bits command.types command.arguments

def bits (command : RpcCommand) : List Bool :=
  command.fieldBits ++ List.replicate (OBitStream.padding command.fieldBits.length) false

theorem bits_whole (command : RpcCommand) : command.bits.length % 8 = 0 := by
  rw [bits, List.length_append, List.length_replicate, OBitStream.padding]
  omega

theorem rpc_id_bit_valid (command : RpcCommand) :
    RpcType.BitValid (.number .uint32 32) command.rpcId :=
  ⟨⟨by decide, by decide⟩, command.rpcId.toNat_lt⟩

theorem writes_bits (command : RpcCommand) (valid : command.BitValid) (stream : OBitStream β)
    (written : List Bool) (boundary : written.length % 8 = 0) (held : stream.Holds written) :
    ∃ after, Runs command.marshal stream () after ∧ after.Holds (written ++ command.bits) := by
  rcases (RpcType.writes_bits (β := β) _ _ command.rpc_id_bit_valid) stream written held with
    ⟨first, writesId, firstHeld⟩
  rcases Arguments.writes_bits command.types command.arguments valid first _ firstHeld with
    ⟨second, writesArguments, secondHeld⟩
  rcases OBitStream.align_appends second _ secondHeld with ⟨after, aligns, afterHeld, _⟩
  refine ⟨after, writesId.bind (writesArguments.bind aligns), ?_⟩
  have samePadding : OBitStream.padding (written ++ RpcType.bits (.number .uint32 32) command.rpcId ++
      Arguments.bits command.types command.arguments).length =
      OBitStream.padding command.fieldBits.length := by
    rw [List.append_assoc, List.length_append, OBitStream.padding, OBitStream.padding]
    change (8 - (written.length + command.fieldBits.length) % 8) % 8 = _
    omega
  rw [samePadding] at afterHeld
  simpa [bits, fieldBits] using afterHeld

theorem readable_bits (less : RpcType.Less) (command : RpcCommand) (valid : command.BitValid)
    (istream : IBitStream β) (rest : List Bool) (boundary : rest.length % 8 = 0)
    (held : istream.Remains (command.bits ++ rest)) :
    command.Readable less (fun after => after.Remains rest) istream := by
  rw [bits, fieldBits, List.append_assoc, List.append_assoc] at held
  rcases RpcType.reads_bits less _ _ command.rpc_id_bit_valid (0 : UInt32) istream _ held with
    ⟨_, middle, readsId, rfl, middleHeld⟩
  refine ⟨middle, readsId, ?_⟩
  intro old
  rcases Arguments.reads_bits less command.types command.arguments valid old middle _ middleHeld with
    ⟨arguments, last, reads, same, lastHeld⟩
  have fill : (List.replicate (OBitStream.padding command.fieldBits.length) false).length =
      (8 - last.bitReadCount) % 8 := by
    have total := lastHeld.total
    have position := lastHeld.position
    rw [List.length_append, List.length_replicate] at total
    rw [List.length_replicate]
    have below : OBitStream.padding command.fieldBits.length < 8 := Nat.mod_lt _ (by omega)
    change OBitStream.padding command.fieldBits.length + rest.length + last.bitReadCount = _ at total
    omega
  rcases IBitStream.align_skips last _ rest lastHeld fill with ⟨after, aligns, remains, _⟩
  exact ⟨arguments, last, after, reads, same, aligns, remains⟩

end RpcCommand

end BitStreams

end Sne.Srpc
