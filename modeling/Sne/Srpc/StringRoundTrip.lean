import Sne.Library.Sequence
import Sne.Core.CarrierRoundTrip
import Sne.Core.Utf8RoundTrip
import Sne.Srpc.RpcRoundTrip

/-!
# Strings on the byte streams

`RString` and `RWString` are written with a 16-bit size field and cut to their
`maxLength` characters. The size field of a wide string counts characters in raw
mode and octets in UTF-8 mode, where it is narrowed to 16 bits although all octets
are written. A wide string of more than 65535 octets is therefore not delimited by
its size field: the reader takes its first octets only and goes on among the others.
-/

namespace Sne.Srpc

open Sne.Core Sne.Library.Exec Sne.Library.Codec Sne.Library.Endian Sne.Library.Sequence

set_option autoImplicit false

/-- What the streams can write. The widths of numbers are ignored by the byte streams. -/
inductive ByteType where
  | number (type : NumericType) (bits : Nat)
  | enum (type : EnumType)
  | buffer (length : UInt16)
  | string (maxLength : Nat)
  | wstring (maxLength : Nat)
  deriving DecidableEq, Repr

def rawBytes (value : List WChar) : List UInt8 := value.flatMap fun wc => littleEndian 4 wc.toNat

namespace ByteType

abbrev Value : ByteType → Type
  | number type _ => type.Value
  | enum type => BitVec type.bitSize
  | buffer _ => List UInt8
  | string _ => List UInt8
  | wstring _ => List WChar

def stringSizeBits : Nat := 16

def Valid : (type : ByteType) → type.Value → Prop
  | number _ _, _ => True
  | enum _, _ => True
  | buffer length, value => value.length = length.toNat
  | string maxLength, _ => maxLength ≤ ushrtMax
  | wstring maxLength, value => maxLength ≤ ushrtMax ∧ ∀ wc ∈ value, wc.Valid

def write {σ : Type} [OStream σ] : (type : ByteType) → type.Value → StreamM σ Unit
  | number type bits, value => type.write bits value
  | enum type, value => OStream.writeEnum (type.toCarrier value) type.bitSize
  | buffer length, value => OStream.writeBuffer value length
  | string maxLength, value => OStream.writeString value maxLength stringSizeBits
  | wstring maxLength, value => OStream.writeWString value maxLength stringSizeBits

def read {σ : Type} [IStream σ] : (type : ByteType) → StreamM σ type.Value
  | number type bits => type.read bits
  | enum type => do
      let aValue ← IStream.readEnum type.bitSize
      pure (type.ofCarrier aValue)
  | buffer length => IStream.readBuffer length
  | string maxLength => IStream.readString maxLength stringSizeBits
  | wstring maxLength => IStream.readWString maxLength stringSizeBits

/-- What is to come back: a string cut to its first `maxLength` characters. -/
def expected : (type : ByteType) → type.Value → type.Value
  | number _ _, value => value
  | enum _, value => value
  | buffer _, value => value
  | string maxLength, value => value.take maxLength
  | wstring maxLength, value => value.take maxLength

/-- The size field of the value can count what follows it. -/
def Delimited (utf8 : Bool) : (type : ByteType) → type.Value → Prop
  | number _ _, _ => True
  | enum _, _ => True
  | buffer _, _ => True
  | string _, _ => True
  | wstring maxLength, value =>
      utf8 = true → (toUtf8 (value.take maxLength)).length ≤ ushrtMax

def encode (utf8 : Bool) : (type : ByteType) → type.Value → List UInt8
  | number type _, value => type.encode value
  | enum type, value => (littleEndian 8 (type.toCarrier value).toNat).take (toBytes type.bitSize)
  | buffer _, value => value
  | string maxLength, value => stringBytes stringSizeBits (value.take maxLength)
  | wstring maxLength, value =>
      if utf8 then
        littleEndian 2 ((toUtf8 (value.take maxLength)).length % 65536) ++
          toUtf8 (value.take maxLength)
      else
        littleEndian 2 (value.take maxLength).length ++ rawBytes (value.take maxLength)

end ByteType

section Modes

variable {β : Type} [FifoBuffer β]

def WriterHolds (utf8 : Bool) : OByteStream β → List UInt8 → Prop :=
  HoldsWith OByteStream.Holds fun stream => stream.shouldUseUtf8ForString = utf8

def ReaderHolds (utf8 : Bool) : IByteStream β → List UInt8 → Prop :=
  HoldsWith IByteStream.Holds fun stream => stream.shouldUseUtf8ForString = utf8

variable {utf8 : Bool}

omit [FifoBuffer β] in
theorem keeps_on_obuffer {α : Type} (program : StreamM β α) :
    Keeps (fun stream : OByteStream β => stream.shouldUseUtf8ForString = utf8)
      (OByteStream.onBuffer program) := by
  apply keeps_focus
  intro stream buffer same
  exact same

theorem keeps_read_bytes (readSize : Nat) :
    Keeps (fun stream : IByteStream β => stream.shouldUseUtf8ForString = utf8)
      (IByteStream.readBytes readSize) := by
  unfold IByteStream.readBytes
  split
  · apply keeps_focus
    intro stream buffer same
    exact same
  · exact keeps_pure _

theorem keeps_read_byte :
    Keeps (fun stream : IByteStream β => stream.shouldUseUtf8ForString = utf8)
      IByteStream.readByte := by
  intro stream byte after same runs
  rcases runs.of_bind with ⟨current, _, got, remaining⟩
  rcases got.unique (runs_get stream) with ⟨rfl, rfl⟩
  rcases remaining.of_bind with ⟨_, middle, _, remaining⟩
  rcases remaining.of_bind with ⟨_, last, stored, returned⟩
  rcases stored.unique (runs_set _ _) with ⟨_, rfl⟩
  rcases returned.unique (runs_pure _ _) with ⟨_, rfl⟩
  exact same

theorem keeps_read_numeric (size : Nat) :
    Keeps (fun stream : IByteStream β => stream.shouldUseUtf8ForString = utf8)
      (IByteStream.readNumeric size) :=
  (keeps_read_bytes size).bind fun _ => keeps_pure _

theorem keeps_numeric_write (type : NumericType) (bits : Nat) (value : type.Value) :
    Keeps (fun stream : OByteStream β => stream.shouldUseUtf8ForString = utf8)
      (type.write bits value) := by
  cases type with
  | bool | int8 | uint8 | int16 | uint16 | int32 | uint32 | int64 | uint64 | float32 =>
      exact keeps_on_obuffer _

theorem keeps_numeric_read (type : NumericType) (bits : Nat) :
    Keeps (fun stream : IByteStream β => stream.shouldUseUtf8ForString = utf8)
      (type.read bits : StreamM (IByteStream β) type.Value) := by
  cases type with
  | uint8 => exact keeps_read_byte
  | bool | int8 => exact keeps_read_byte.map _
  | int16 | uint16 | int32 | uint32 | int64 | uint64 | float32 =>
      exact (keeps_read_numeric _).map _

theorem keeps_write_size (strLen : UInt16) (sizeBitCount : Nat) :
    Keeps (fun stream : OByteStream β => stream.shouldUseUtf8ForString = utf8)
      (OByteStream.writeStringLength strLen sizeBitCount) := by
  unfold OByteStream.writeStringLength
  split
  · exact keeps_on_obuffer _
  · exact keeps_on_obuffer _

theorem keeps_write_string (value : List UInt8) (maxLength sizeBitCount : Nat) :
    Keeps (fun stream : OByteStream β => stream.shouldUseUtf8ForString = utf8)
      (OByteStream.writeString value maxLength sizeBitCount) := by
  apply (keeps_write_size _ _).bind
  intro _
  exact keeps_on_obuffer _

theorem keeps_read_size (sizeBitCount : Nat) :
    Keeps (fun stream : IByteStream β => stream.shouldUseUtf8ForString = utf8)
      (IByteStream.readStringSize sizeBitCount) := by
  unfold IByteStream.readStringSize
  split
  · exact keeps_read_byte.bind fun _ => keeps_pure _
  · exact keeps_read_numeric _

theorem keeps_read_string (maxLength sizeBitCount : Nat) :
    Keeps (fun stream : IByteStream β => stream.shouldUseUtf8ForString = utf8)
      (IByteStream.readString maxLength sizeBitCount) := by
  apply (keeps_read_size sizeBitCount).bind
  intro size
  split
  · exact (keeps_read_bytes _).bind fun _ => keeps_pure _
  · exact keeps_pure _

end Modes

section Strings

variable {β : Type} [FifoBuffer β]

theorem string_size_valid {maxLength : Nat} (bound : maxLength ≤ ushrtMax) :
    SizeFieldValid maxLength ByteType.stringSizeBits := by
  have limit : maxLength ≤ 65535 := bound
  exact ⟨.inr rfl, by unfold ByteType.stringSizeBits; omega⟩

theorem write_string_cut {maxLength : Nat} (bound : maxLength ≤ ushrtMax) (value : List UInt8)
    (sizeBitCount : Nat) :
    (OByteStream.writeString value maxLength sizeBitCount : StreamM (OByteStream β) Unit) =
      OByteStream.writeString (value.take maxLength) maxLength sizeBitCount := by
  have limit : maxLength ≤ 65535 := bound
  have length : min (value.take maxLength).length maxLength = min value.length maxLength := by
    rw [List.length_take]
    omega
  have strLen : (UInt16.ofNat (min value.length maxLength)).toNat = min value.length maxLength := by
    rw [UInt16.toNat_ofNat']
    omega
  have same : (value.take maxLength).take (min value.length maxLength) =
      value.take (min value.length maxLength) := by
    rw [List.take_take, Nat.min_eq_left (Nat.min_le_right _ _)]
  simp only [OByteStream.writeString, length, strLen, same]

theorem writes_size (strLen : UInt16) :
    Writes OByteStream.Holds (OByteStream.writeStringLength strLen ByteType.stringSizeBits :
      StreamM (OByteStream β) Unit) (littleEndian 2 strLen.toNat) := by
  unfold OByteStream.writeStringLength
  rw [if_neg (by unfold ByteType.stringSizeBits; omega)]
  exact OByteStream.writes_numeric 2 strLen.toNat

theorem reads_size {size : Nat} (fits : size < 65536) :
    Reads IByteStream.Holds (IByteStream.readStringSize ByteType.stringSizeBits :
      StreamM (IByteStream β) Nat) (littleEndian 2 size) (fun read => read = size) := by
  unfold IByteStream.readStringSize
  rw [if_neg (by unfold ByteType.stringSizeBits; omega)]
  exact IByteStream.reads_numeric fits

theorem writes_wstring (utf8 : Bool) {maxLength : Nat} (bound : maxLength ≤ ushrtMax)
    (value : List WChar) :
    Writes (WriterHolds utf8) (OByteStream.writeWString value maxLength ByteType.stringSizeBits :
      StreamM (OByteStream β) Unit) ((ByteType.wstring maxLength).encode utf8 value) := by
  have limit : maxLength ≤ 65535 := bound
  intro stream before held
  have mode := held.2
  cases utf8 with
  | true =>
      have size := (writes_size (β := β)
        (UInt16.ofNat (toUtf8 (value.take maxLength)).length)).bind
        (OByteStream.writes_bytes (toUtf8 (value.take maxLength)))
      rcases size.keeping ((keeps_write_size _ _).bind fun _ => keeps_on_obuffer _) stream before held
        with ⟨after, runs, afterHeld⟩
      refine ⟨after, (runs_get stream).bind ?_, ?_⟩
      · rw [if_pos mode]
        exact runs
      · rw [UInt16.toNat_ofNat'] at afterHeld
        exact afterHeld
  | false =>
      have strLen : (UInt16.ofNat (min value.length maxLength)).toNat =
          (value.take maxLength).length := by
        rw [UInt16.toNat_ofNat', List.length_take]
        omega
      have same : value.take (value.take maxLength).length = value.take maxLength := by
        rw [List.length_take, List.take_eq_take_iff]
        omega
      have each : Writes OByteStream.Holds (writeEach (fun wc : WChar =>
          (OByteStream.writeNumeric 4 wc.toNat : StreamM (OByteStream β) Unit))
          (value.take maxLength)) (rawBytes (value.take maxLength)) :=
        writes_each fun wc _ => OByteStream.writes_numeric 4 wc.toNat
      have size := (writes_size (UInt16.ofNat (min value.length maxLength))).bind each
      rcases size.keeping ((keeps_write_size _ _).bind fun _ => keeps_each
        (fun _ => keeps_on_obuffer _) _) stream before held with ⟨after, runs, afterHeld⟩
      refine ⟨after, (runs_get stream).bind ?_, ?_⟩
      · rw [if_neg (by rw [mode]; exact Bool.false_ne_true)]
        simp only [strLen, same]
        exact runs
      · rw [strLen] at afterHeld
        exact afterHeld

theorem reads_wstring_utf8 (maxLength : Nat) (octets : List UInt8) (fits : octets.length < 65536) :
    Reads (ReaderHolds true) (IByteStream.readWString maxLength ByteType.stringSizeBits :
      StreamM (IByteStream β) (List WChar)) (littleEndian 2 octets.length ++ octets)
      (fun read => read = (fromUtf8 octets).take maxLength) := by
  apply ((reads_size fits).keeping (keeps_read_size _)).bind
  rintro _ rfl stream rest held
  have mode := held.2
  by_cases some : octets.length > 0
  · have bytes : Reads (ReaderHolds (β := β) true) (IByteStream.readBytes octets.length) octets
        (fun read => read = octets) :=
      (IByteStream.reads_bytes octets).keeping (keeps_read_bytes _)
    rcases bytes stream rest held with ⟨_, after, runs, rfl, afterHeld⟩
    refine ⟨_, after, (runs_get stream).bind ?_, rfl, afterHeld⟩
    rw [if_pos some, if_pos mode]
    exact runs.bind (runs_pure _ _)
  · have none : octets = [] := List.eq_nil_of_length_eq_zero (by omega)
    subst none
    refine ⟨[], stream, (runs_get stream).bind ?_, List.take_nil.symm, held⟩
    rw [if_neg some]
    exact runs_pure _ _

theorem reads_wstring_raw {maxLength : Nat} (bound : maxLength ≤ ushrtMax) (value : List WChar)
    (short : value.length ≤ maxLength) :
    Reads (ReaderHolds false) (IByteStream.readWString maxLength ByteType.stringSizeBits :
      StreamM (IByteStream β) (List WChar)) (littleEndian 2 value.length ++ rawBytes value)
      (fun read => read = value) := by
  have limit : maxLength ≤ 65535 := bound
  apply ((reads_size (by omega)).keeping (keeps_read_size _)).bind
  rintro _ rfl stream rest held
  have mode := held.2
  have round : ∀ (done : List WChar) (wc : WChar) (others read : List WChar),
      value = done ++ wc :: others → read = done →
      Reads (ReaderHolds (β := β) false) (do
        let ch ← IByteStream.readNumeric 4
        pure (read ++ [BitVec.ofNat 32 ch])) (littleEndian 4 wc.toNat)
        (fun next => next = done ++ [wc]) := by
    intro done wc others read _ same
    subst same
    apply ((IByteStream.reads_numeric wc.isLt).keeping (keeps_read_numeric 4)).returning
    rintro _ rfl
    rw [BitVec.ofNat_toNat, BitVec.setWidth_eq]
  by_cases some : value.length > 0
  · rcases reads_repeat (fun done read => read = done) round rfl stream rest held with
      ⟨read, after, runs, same, afterHeld⟩
    rw [same] at runs
    refine ⟨value, after, (runs_get stream).bind ?_, rfl, afterHeld⟩
    rw [if_pos some, if_neg (by rw [mode]; exact Bool.false_ne_true)]
    apply runs.returning
    exact List.take_of_length_le short
  · have none : value = [] := List.eq_nil_of_length_eq_zero (by omega)
    subst none
    refine ⟨_, stream, (runs_get stream).bind ?_, rfl, held⟩
    rw [if_neg some]
    exact runs_pure _ _

theorem field_writes (utf8 : Bool) (type : ByteType) (value : type.Value)
    (valid : type.Valid value) :
    Writes (WriterHolds utf8) (type.write value : StreamM (OByteStream β) Unit)
      (type.encode utf8 value) := by
  cases type with
  | number type bits => exact (type.writes bits value).keeping (keeps_numeric_write type bits value)
  | enum type => exact (OByteStream.writes_bytes _).keeping (keeps_on_obuffer _)
  | buffer length =>
      have whole : (ByteType.buffer length).encode utf8 value = value.take length.toNat :=
        (List.take_of_length_le (Nat.le_of_eq valid)).symm
      rw [whole]
      exact (OByteStream.writes_bytes _).keeping (keeps_on_obuffer _)
  | string maxLength =>
      have short : (value.take maxLength).length ≤ maxLength := List.length_take_le _ _
      change Writes (WriterHolds utf8)
        (OByteStream.writeString value maxLength ByteType.stringSizeBits) _
      rw [write_string_cut valid]
      exact (writes_string (string_size_valid valid) _ short).keeping (keeps_write_string _ _ _)
  | wstring maxLength => exact writes_wstring utf8 valid.1 value

theorem enum_size (type : EnumType) : toBytes type.bitSize = type.bytes := by
  unfold toBytes EnumType.bitSize charBit
  omega

theorem enum_range (type : EnumType) : 256 ^ type.bytes = 2 ^ type.bitSize := by
  rw [EnumType.bitSize, Nat.mul_comm, Nat.pow_mul]
  rfl

theorem enum_bytes (type : EnumType) (value : BitVec type.bitSize) :
    (littleEndian 8 (type.toCarrier value).toNat).take (toBytes type.bitSize) =
      littleEndian type.bytes (type.toCarrier value).toNat := by
  have valid := type.valid
  simp only [List.mem_cons, List.not_mem_nil, or_false] at valid
  rw [enum_size]
  have cut := little_endian_take type.bytes (8 - type.bytes) (type.toCarrier value).toNat
  rw [show type.bytes + (8 - type.bytes) = 8 by omega] at cut
  exact cut

theorem reads_enum (type : EnumType) (value : BitVec type.bitSize) :
    Reads IByteStream.Holds ((ByteType.enum type).read : StreamM (IByteStream β) _)
      ((ByteType.enum type).encode true value) (fun read => read = value) := by
  have valid := type.valid
  simp only [List.mem_cons, List.not_mem_nil, or_false] at valid
  have bytes := IByteStream.reads_bytes (β := β)
    (littleEndian type.bytes (type.toCarrier value).toNat)
  rw [little_endian_length] at bytes
  have carrier : Reads IByteStream.Holds (IByteStream.readEnum type.bitSize :
      StreamM (IByteStream β) UInt64) (littleEndian type.bytes (type.toCarrier value).toNat)
      (fun read => read = UInt64.ofNat (value.toNat)) := by
    unfold IByteStream.readEnum
    rw [enum_size]
    apply bytes.returning
    rintro _ rfl
    rw [of_little_endian_little_endian, enum_range, EnumType.carrier_mod]
  rw [ByteType.encode, enum_bytes]
  apply carrier.returning
  rintro _ rfl
  have wide : 2 ^ type.bitSize ≤ 2 ^ 64 := Nat.pow_le_pow_right (by omega) type.bit_size_valid.2
  have bound := value.isLt
  apply BitVec.eq_of_toNat_eq
  rw [EnumType.ofCarrier, BitVec.toNat_setWidth, UInt64.toNat_toBitVec, UInt64.toNat_ofNat',
    Nat.mod_eq_of_lt (Nat.lt_of_lt_of_le bound wide), Nat.mod_eq_of_lt bound]

theorem field_reads (utf8 : Bool) (type : ByteType) (value : type.Value)
    (valid : type.Valid value) (delimited : type.Delimited utf8 value) :
    Reads (ReaderHolds utf8) (type.read : StreamM (IByteStream β) type.Value)
      (type.encode utf8 value) (fun read => read = type.expected value) := by
  cases type with
  | number type bits => exact (type.reads bits value).keeping (keeps_numeric_read type bits)
  | enum type =>
      apply (reads_enum type value).keeping
      exact ((keeps_read_bytes _).bind fun _ => keeps_pure _).bind fun _ => keeps_pure _
  | buffer length =>
      have bytes := IByteStream.reads_bytes (β := β) value
      rw [valid] at bytes
      exact bytes.keeping (keeps_read_bytes _)
  | string maxLength =>
      have short : (value.take maxLength).length ≤ maxLength := List.length_take_le _ _
      exact (reads_string (string_size_valid valid) _ short).keeping (keeps_read_string _ _)
  | wstring maxLength =>
      have limit : maxLength ≤ 65535 := valid.1
      have short : (value.take maxLength).length ≤ maxLength := List.length_take_le _ _
      cases utf8 with
      | true =>
          have fits : (toUtf8 (value.take maxLength)).length ≤ 65535 := delimited rfl
          have decoded := (wide_string_restored_iff (fun wc member =>
            valid.2 wc (List.mem_of_mem_take member)) short _).mpr (Nat.le_refl _)
          rw [List.take_length] at decoded
          have reads := reads_wstring_utf8 (β := β) maxLength (toUtf8 (value.take maxLength))
            (by omega)
          rw [decoded] at reads
          rw [ByteType.encode, if_pos rfl, Nat.mod_eq_of_lt (by omega)]
          exact reads
      | false => exact reads_wstring_raw valid.1 _ short

theorem undelimited_read (utf8 : Bool) (type : ByteType) (value : type.Value)
    (valid : type.Valid value) (undelimited : ¬type.Delimited utf8 value) (rest : List UInt8)
    (stream after : IByteStream β) (held : ReaderHolds utf8 stream (type.encode utf8 value ++ rest)) :
    ¬Runs type.read stream (type.expected value) after := by
  cases type with
  | number type bits | enum type | buffer length | string maxLength =>
      exact absurd trivial undelimited
  | wstring maxLength =>
      rcases Classical.not_imp.mp undelimited with ⟨rfl, long⟩
      have limit : ¬(toUtf8 (value.take maxLength)).length ≤ 65535 := long
      have short : (value.take maxLength).length ≤ maxLength := List.length_take_le _ _
      intro runs
      have restored := wide_string_restored_iff (fun wc member =>
        valid.2 wc (List.mem_of_mem_take member)) short
        ((toUtf8 (value.take maxLength)).length % 65536)
      have taken : ((toUtf8 (value.take maxLength)).take
          ((toUtf8 (value.take maxLength)).length % 65536)).length =
          (toUtf8 (value.take maxLength)).length % 65536 := by
        rw [List.length_take]
        omega
      have reads := reads_wstring_utf8 (β := β) maxLength ((toUtf8 (value.take maxLength)).take
        ((toUtf8 (value.take maxLength)).length % 65536)) (by omega)
      have split := List.take_append_drop
        ((toUtf8 (value.take maxLength)).length % 65536) (toUtf8 (value.take maxLength))
      have encoded : (ByteType.wstring maxLength).encode true value ++ rest =
          (littleEndian 2 ((toUtf8 (value.take maxLength)).length % 65536) ++
            (toUtf8 (value.take maxLength)).take ((toUtf8 (value.take maxLength)).length % 65536)) ++
          ((toUtf8 (value.take maxLength)).drop
            ((toUtf8 (value.take maxLength)).length % 65536) ++ rest) := by
        rw [ByteType.encode, if_pos rfl, List.append_assoc, List.append_assoc, ← List.append_assoc
          ((toUtf8 (value.take maxLength)).take _), split]
      rw [encoded] at held
      rw [taken] at reads
      rcases reads stream _ held with ⟨_, last, readRuns, rfl, _⟩
      rcases readRuns.unique runs with ⟨same, _⟩
      have none := restored.mp same
      omega

def expectedItem (item : Typed ByteType.Value) : Typed ByteType.Value :=
  ⟨item.1, item.1.expected item.2⟩

theorem read_fields_iff (utf8 : Bool) (items : List (Typed ByteType.Value))
    (valid : ∀ item ∈ items, item.1.Valid item.2) (rest : List UInt8) (stream : IByteStream β)
    (held : ReaderHolds utf8 stream (items.flatMap (fun item => item.1.encode utf8 item.2) ++ rest)) :
    (∃ after, Runs (readAll ByteType.read (items.map Sigma.fst)) stream (items.map expectedItem) after ∧
      after.Holds rest) ↔ ∀ item ∈ items, item.1.Delimited utf8 item.2 := by
  induction items generalizing stream with
  | nil =>
      constructor
      · simp
      · intro _
        exact ⟨stream, runs_pure _ _, held.1⟩
  | cons item others induction =>
      rw [List.forall_mem_cons] at valid ⊢
      rw [List.flatMap_cons, List.append_assoc] at held
      by_cases delimited : item.1.Delimited utf8 item.2
      · rcases field_reads utf8 item.1 item.2 valid.1 delimited stream _ held with
          ⟨_, middle, first, rfl, middleHeld⟩
        rw [← induction valid.2 middle middleHeld]
        constructor
        · rintro ⟨after, runs, afterHeld⟩
          rcases read_all_cons runs with ⟨middle', first', following⟩
          rcases first.unique first' with ⟨_, rfl⟩
          exact ⟨delimited, after, following, afterHeld⟩
        · rintro ⟨_, after, following, afterHeld⟩
          exact ⟨after, first.bind (following.bind (runs_pure _ _)), afterHeld⟩
      · constructor
        · rintro ⟨after, runs, _⟩
          rcases read_all_cons runs with ⟨middle, first, _⟩
          exact absurd first (undelimited_read utf8 item.1 item.2 valid.1 delimited _ stream middle held)
        · rintro ⟨both, _⟩
          exact absurd both delimited

end Strings

structure ByteField where
  type : ByteType
  value : type.Value
  valid : type.Valid value

def ByteField.toValue (field : ByteField) : Typed ByteType.Value := ⟨field.type, field.value⟩

def ByteField.expected (field : ByteField) : Typed ByteType.Value :=
  ⟨field.type, field.type.expected field.value⟩

def ByteField.Delimited (utf8 : Bool) (field : ByteField) : Prop :=
  field.type.Delimited utf8 field.value

def writeByteFields {σ : Type} [OStream σ] (fields : List ByteField) : StreamM σ Unit :=
  writeAll ByteType.write (fields.map ByteField.toValue)

def readByteFields {σ : Type} [IStream σ] (types : List ByteType) :
    StreamM σ (List (Typed ByteType.Value)) :=
  readAll ByteType.read types

/-- Strings and the fields between and behind them are read back, the strings cut to their
`maxLength`, and any further bytes are left, exactly when every wide string that is written
in UTF-8 has at most 65535 octets. -/
theorem strings_delimited_iff {β γ : Type} [FifoBuffer β] [FifoBuffer γ] (utf8 : Bool)
    (fields : List ByteField) :
    ∃ bytes,
      (∀ buffer : β, ∃ after, Runs (writeByteFields fields) (OByteStream.mk buffer utf8) () after ∧
        FifoBuffer.contents after.streamBuffer = FifoBuffer.contents buffer ++ bytes) ∧
      ∀ (buffer : γ) (rest : List UInt8), FifoBuffer.contents buffer = bytes ++ rest →
        ((∃ after, Runs (readByteFields (fields.map ByteField.type)) (IByteStream.mk buffer utf8)
            (fields.map ByteField.expected) after ∧
            FifoBuffer.contents after.streamBuffer = rest) ↔
          ∀ field ∈ fields, field.Delimited utf8) := by
  have valid : ∀ item ∈ fields.map ByteField.toValue, item.1.Valid item.2 := by
    intro item member
    rcases List.mem_map.mp member with ⟨field, _, rfl⟩
    exact field.valid
  refine ⟨(fields.map ByteField.toValue).flatMap (fun item => item.1.encode utf8 item.2), ?_, ?_⟩
  · intro buffer
    rcases write_all_appends (fun _ item => item.1.encode utf8 item.2) (WriterHolds utf8)
      (fields.map ByteField.toValue) (fun item member stream before held =>
        field_writes utf8 item.1 item.2 (valid item member) stream before held)
      (OByteStream.mk buffer utf8) _ ⟨rfl, rfl⟩ with ⟨after, runs, held⟩
    rw [encode_all_uniform] at held
    exact ⟨after, runs, held.1⟩
  · intro buffer rest contents
    have fieldwise := read_fields_iff utf8 _ valid rest (IByteStream.mk buffer utf8) ⟨contents, rfl⟩
    rw [List.map_map, List.map_map, List.forall_mem_map] at fieldwise
    exact fieldwise

theorem strings_delimited_korean :
    let fields : List ByteField := [
      ⟨.wstring 65535, [0xac00, 0x61], Nat.le_refl 65535, by simp [WChar.Valid]⟩,
      ⟨.string 2, [104, 105, 33], (by decide : 2 ≤ 65535)⟩, ⟨.number .int16 16, -5, trivial⟩]
    ∃ written after, Runs (writeByteFields fields) (OByteStream.mk (ByteQueue.mk []) true) () written ∧
      Runs (readByteFields (fields.map ByteField.type)) (IByteStream.mk written.streamBuffer true)
        (fields.map ByteField.expected) after := by
  intro fields
  rcases strings_delimited_iff (β := ByteQueue) (γ := ByteQueue) true fields with
    ⟨bytes, writes, reads⟩
  rcases writes (ByteQueue.mk []) with ⟨written, writeRuns, contents⟩
  have delimited : ∀ field ∈ fields, field.Delimited true := by
    intro field member
    simp only [fields, List.mem_cons, List.not_mem_nil, or_false] at member
    rcases member with rfl | rfl | rfl
    · intro _
      decide
    · trivial
    · trivial
  rw [← List.append_nil bytes] at contents
  rcases (reads written.streamBuffer [] contents).mpr delimited with ⟨after, readRuns, _⟩
  exact ⟨written, after, writeRuns, readRuns⟩

theorem to_utf8_replicate_length (count : Nat) (wc : WChar) :
    (toUtf8 (List.replicate count wc)).length = count * (Utf8.encode wc).length := by
  induction count with
  | zero => simp [toUtf8]
  | succ count induction =>
      have split : toUtf8 (List.replicate (count + 1) wc) =
        Utf8.encode wc ++ toUtf8 (List.replicate count wc) := rfl
      rw [split, List.length_append, induction, Nat.succ_mul, Nat.add_comm]

theorem wide_string_is_lost (text : List WChar) (short : text.length ≤ 65535)
    (valid : ∀ wc ∈ text, wc.Valid) (long : 65535 < (toUtf8 text).length) :
    ∃ written, Runs (OByteStream.writeWString text 65535 16)
        (OByteStream.mk (ByteQueue.mk []) true) () written ∧
      ∀ after, ¬Runs (IByteStream.readWString 65535 16) (IByteStream.mk written.streamBuffer true)
        text after := by
  have field : (ByteType.wstring 65535).Valid text := ⟨Nat.le_refl 65535, valid⟩
  have cut : text.take 65535 = text := List.take_of_length_le short
  have undelimited : ¬(ByteType.wstring 65535).Delimited true text := by
    intro delimited
    have few : (toUtf8 (text.take 65535)).length ≤ 65535 := delimited rfl
    rw [cut] at few
    omega
  rcases field_writes true (.wstring 65535) _ field (OByteStream.mk (ByteQueue.mk []) true) []
    ⟨rfl, rfl⟩ with ⟨written, writeRuns, held⟩
  refine ⟨written, writeRuns, ?_⟩
  intro after runs
  have lost := undelimited_read true (.wstring 65535) _ field undelimited [] (IByteStream.mk
    written.streamBuffer true) after (by rw [List.append_nil]; exact ⟨held.1, rfl⟩)
  rw [ByteType.expected, cut] at lost
  exact lost runs

/-- A wide string of 65536 octets gets the size 0 and is not read back. -/
theorem long_wide_string_is_lost :
    ∃ written, Runs (OByteStream.writeWString (List.replicate 32768 (0x80 : WChar)) 65535 16)
        (OByteStream.mk (ByteQueue.mk []) true) () written ∧
      ∀ after, ¬Runs (IByteStream.readWString 65535 16) (IByteStream.mk written.streamBuffer true)
        (List.replicate 32768 (0x80 : WChar)) after := by
  apply wide_string_is_lost
  · rw [List.length_replicate]
    omega
  · intro wc member
    rw [List.eq_of_mem_replicate member]
    simp [WChar.Valid]
  · have two : (Utf8.encode 0x80).length = 2 := by decide
    rw [to_utf8_replicate_length, two]
    omega

end Sne.Srpc
