import Mathlib.Data.List.TakeDrop
import Sne.Srpc.RpcRoundTrip
import Sne.Srpc.StringRoundTrip

/-!
# The specification of a server on the streams

`ServerSpec.h`. One template of `serialize` lists the fields for both directions: `&` is
`<<` on an output stream and `>>` on an input stream. It lists neither the address of the
monitor nor the limit of pendable packets.
-/

namespace Sne.Server.Specification

open Sne.Core Sne.Srpc Sne.Library.Exec Sne.Library.Codec Sne.Library.Endian

set_option autoImplicit false

structure SessionCapacity where
  maxBytesPerSecond : UInt16
  secondsForThrottling : UInt16
  maxPendablePacketCount : UInt16
deriving DecidableEq, Repr

structure ServerSpec where
  name : List UInt8
  workerThreadCount : UInt16
  listeningAddresses : List (List UInt8)
  listeningPort : UInt16
  monitorAddress : List UInt8
  monitorPort : UInt16
  sessionPoolSize : UInt16
  maxUserCount : UInt16
  packetCipher : List UInt8
  cipherKeyTimeLimit : UInt16
  authenticationTimeout : UInt16
  heartbeatTimeout : UInt16
  sessionCapacity : SessionCapacity
  certificate : List UInt8
deriving DecidableEq, Repr

def ServerSpec.initial : ServerSpec :=
  { name := [], workerThreadCount := 0, listeningAddresses := [], listeningPort := 0
    monitorAddress := [], monitorPort := 0, sessionPoolSize := 0, maxUserCount := 0
    packetCipher := [], cipherKeyTimeLimit := 0, authenticationTimeout := 0, heartbeatTimeout := 0
    sessionCapacity :=
      { maxBytesPerSecond := 0, secondsForThrottling := 0, maxPendablePacketCount := 0 }
    certificate := [] }

/-- `stream & value` for the types of the fields, with the value after it. -/
structure Ampersand (σ : Type) where
  uint16 : UInt16 → StreamM σ UInt16
  string : List UInt8 → StreamM σ (List UInt8)
  addresses : List (List UInt8) → StreamM σ (List (List UInt8))

def ostream {σ : Type} [OStream σ] : Ampersand σ where
  uint16 value := do
    OStream.writeUInt16 value 16
    pure value
  string value := do
    OStream.writeString value ushrtMax 16
    pure value
  addresses values := do
    writeSequence (fun value => OStream.writeString value ushrtMax 16) values
    pure values

def istream {σ : Type} [IStream σ] : Ampersand σ where
  uint16 _ := IStream.readUInt16 16
  string _ := IStream.readString ushrtMax 16
  addresses _ := readSequence pushBack (IStream.readString ushrtMax 16)

def serialize {σ : Type} (stream : Ampersand σ) (spec : ServerSpec) : StreamM σ ServerSpec := do
  let name ← stream.string spec.name
  let workerThreadCount ← stream.uint16 spec.workerThreadCount
  let listeningAddresses ← stream.addresses spec.listeningAddresses
  let listeningPort ← stream.uint16 spec.listeningPort
  let monitorPort ← stream.uint16 spec.monitorPort
  let sessionPoolSize ← stream.uint16 spec.sessionPoolSize
  let maxUserCount ← stream.uint16 spec.maxUserCount
  let packetCipher ← stream.string spec.packetCipher
  let cipherKeyTimeLimit ← stream.uint16 spec.cipherKeyTimeLimit
  let authenticationTimeout ← stream.uint16 spec.authenticationTimeout
  let heartbeatTimeout ← stream.uint16 spec.heartbeatTimeout
  let maxBytesPerSecond ← stream.uint16 spec.sessionCapacity.maxBytesPerSecond
  let secondsForThrottling ← stream.uint16 spec.sessionCapacity.secondsForThrottling
  let certificate ← stream.string spec.certificate
  pure { spec with
    name, workerThreadCount, listeningAddresses, listeningPort, monitorPort, sessionPoolSize
    maxUserCount, packetCipher, cipherKeyTimeLimit, authenticationTimeout, heartbeatTimeout
    sessionCapacity := { spec.sessionCapacity with maxBytesPerSecond, secondsForThrottling }
    certificate }

/-- The strings and the addresses that the size fields can count, but for the certificate. -/
structure ServerSpec.Valid (spec : ServerSpec) : Prop where
  name : spec.name.length ≤ ushrtMax
  addresses : ∀ address ∈ spec.listeningAddresses, address.length ≤ ushrtMax
  addressCount : spec.listeningAddresses.length ≤ maxContainerSize
  packetCipher : spec.packetCipher.length ≤ ushrtMax

def encodeUInt16 (value : UInt16) : List UInt8 := littleEndian 2 value.toNat

def encodeString (value : List UInt8) : List UInt8 := stringBytes 16 (value.take ushrtMax)

def encodeAddresses (values : List (List UInt8)) : List UInt8 := encodeSequence (stringBytes 16) values

def encode (spec : ServerSpec) : List UInt8 :=
  encodeString spec.name ++ (encodeUInt16 spec.workerThreadCount ++
    (encodeAddresses spec.listeningAddresses ++ (encodeUInt16 spec.listeningPort ++
    (encodeUInt16 spec.monitorPort ++ (encodeUInt16 spec.sessionPoolSize ++
    (encodeUInt16 spec.maxUserCount ++ (encodeString spec.packetCipher ++
    (encodeUInt16 spec.cipherKeyTimeLimit ++ (encodeUInt16 spec.authenticationTimeout ++
    (encodeUInt16 spec.heartbeatTimeout ++ (encodeUInt16 spec.sessionCapacity.maxBytesPerSecond ++
    (encodeUInt16 spec.sessionCapacity.secondsForThrottling ++ encodeString spec.certificate))))))))))))

section Fields

variable {σ β γ : Type} [FifoBuffer β] [FifoBuffer γ]

/-- What `&` does to a field that is `given` when `sent` was written. On an output stream the
two are the same; a string arrives cut on an input stream. -/
structure Passes (holds : σ → List UInt8 → Prop) (output : Prop) (arrives : List UInt8 → List UInt8)
    (stream : Ampersand σ) : Prop where
  short : ∀ sent, sent.length ≤ ushrtMax → arrives sent = sent
  uint16 : ∀ sent given, (output → given = sent) →
    Reads holds (stream.uint16 given) (encodeUInt16 sent) (fun value => value = sent)
  string : ∀ sent given, (output → given = sent) →
    Reads holds (stream.string given) (encodeString sent) (fun value => value = arrives sent)
  addresses : ∀ sent given, (output → given = sent) → sent.length ≤ maxContainerSize →
    (∀ address ∈ sent, address.length ≤ ushrtMax) →
    Reads holds (stream.addresses given) (encodeAddresses sent) (fun values => values = sent)

/-- What comes out of `serialize`: the fields that it does not list are those given. -/
def merged (arrives : List UInt8 → List UInt8) (sent given : ServerSpec) : ServerSpec :=
  { sent with
    monitorAddress := given.monitorAddress
    sessionCapacity :=
      { sent.sessionCapacity with
        maxPendablePacketCount := given.sessionCapacity.maxPendablePacketCount }
    certificate := arrives sent.certificate }

theorem serialize_passes {holds : σ → List UInt8 → Prop} {output : Prop}
    {arrives : List UInt8 → List UInt8} {stream : Ampersand σ}
    (passes : Passes holds output arrives stream)
    {sent given : ServerSpec} (valid : sent.Valid) (same : output → given = sent) :
    Reads holds (serialize stream given) (encode sent)
      (fun result => result = merged arrives sent given) := by
  have field : ∀ {α : Type} (part : ServerSpec → α), output → part given = part sent := by
    intro α part out
    rw [same out]
  apply (passes.string _ _ (field ServerSpec.name)).bind
  intro name name_eq
  apply (passes.uint16 _ _ (field ServerSpec.workerThreadCount)).bind
  rintro _ rfl
  apply (passes.addresses _ _ (field ServerSpec.listeningAddresses) valid.addressCount valid.addresses).bind
  rintro _ rfl
  apply (passes.uint16 _ _ (field ServerSpec.listeningPort)).bind
  rintro _ rfl
  apply (passes.uint16 _ _ (field ServerSpec.monitorPort)).bind
  rintro _ rfl
  apply (passes.uint16 _ _ (field ServerSpec.sessionPoolSize)).bind
  rintro _ rfl
  apply (passes.uint16 _ _ (field ServerSpec.maxUserCount)).bind
  rintro _ rfl
  apply (passes.string _ _ (field ServerSpec.packetCipher)).bind
  intro packetCipher cipher_eq
  apply (passes.uint16 _ _ (field ServerSpec.cipherKeyTimeLimit)).bind
  rintro _ rfl
  apply (passes.uint16 _ _ (field ServerSpec.authenticationTimeout)).bind
  rintro _ rfl
  apply (passes.uint16 _ _ (field ServerSpec.heartbeatTimeout)).bind
  rintro _ rfl
  apply (passes.uint16 _ _ (field fun spec => spec.sessionCapacity.maxBytesPerSecond)).bind
  rintro _ rfl
  apply (passes.uint16 _ _ (field fun spec => spec.sessionCapacity.secondsForThrottling)).bind
  rintro _ rfl
  apply (passes.string _ _ (field ServerSpec.certificate)).returning
  rintro _ rfl
  rw [name_eq, cipher_eq, passes.short sent.name valid.name,
    passes.short sent.packetCipher valid.packetCipher]
  rfl

theorem ostream_passes (whole : List UInt8) :
    Passes (Awaits OByteStream.Holds whole) True id (ostream : Ampersand (OByteStream β)) where
  short _ _ := rfl
  uint16 sent given same := by
    rw [same trivial]
    exact (NumericType.writes .uint16 16 sent).awaited whole sent
  string sent given same := by
    have cut : (sent.take ushrtMax).length ≤ ushrtMax := List.length_take_le _ _
    have writes := writes_string (β := β) Param.string_size_field _ cut
    rw [← write_string_cut (Nat.le_refl ushrtMax)] at writes
    rw [same trivial]
    exact writes.awaited whole sent
  addresses sent given same few short := by
    rw [same trivial]
    apply Writes.awaited
    apply writes_sequence few
    intro address member
    exact writes_string Param.string_size_field address (short address member)

theorem istream_passes :
    Passes IByteStream.Holds False (List.take ushrtMax) (istream : Ampersand (IByteStream γ)) where
  short _ few := List.take_of_length_le few
  uint16 sent _ _ := NumericType.reads .uint16 16 sent
  string sent _ _ := reads_string Param.string_size_field _ (List.length_take_le _ _)
  addresses sent _ _ few short := by
    have reads : Reads IByteStream.Holds
        (readSequence pushBack (IStream.readString ushrtMax 16) : StreamM (IByteStream γ) _)
        (encodeAddresses sent) (List.Forall₂ (fun sent read => sent = read) sent) := by
      apply reads_sequence few
      · intro address member
        apply (reads_string Param.string_size_field address (short address member)).imp
        intro read same
        exact same.symm
      · intro _ _ _ _ _ _ _ _
        rfl
    apply reads.imp
    intro values same
    exact (List.forall₂_eq_eq_eq ▸ same : sent = values).symm

end Fields

theorem merged_eq_iff (sent received : ServerSpec) :
    merged (List.take ushrtMax) sent received = sent ↔
      received.monitorAddress = sent.monitorAddress ∧
      received.sessionCapacity.maxPendablePacketCount = sent.sessionCapacity.maxPendablePacketCount ∧
      sent.certificate.length ≤ ushrtMax := by
  constructor
  · intro same
    have address : received.monitorAddress = sent.monitorAddress :=
      congrArg (fun spec => spec.monitorAddress) same
    have count : received.sessionCapacity.maxPendablePacketCount =
        sent.sessionCapacity.maxPendablePacketCount :=
      congrArg (fun spec => spec.sessionCapacity.maxPendablePacketCount) same
    have certificate : sent.certificate.take ushrtMax = sent.certificate :=
      congrArg (fun spec => spec.certificate) same
    exact ⟨address, count, (List.take_eq_self_iff _).mp certificate⟩
  · rintro ⟨address, count, short⟩
    unfold merged
    rw [address, count, List.take_of_length_le short]

section Streams

variable {β γ : Type} [FifoBuffer β] [FifoBuffer γ]

theorem spec_written {sent : ServerSpec} (valid : sent.Valid) (buffer : β) (utf8 : Bool) :
    ∃ after, Runs (serialize ostream sent) (OByteStream.mk buffer utf8) sent after ∧
      FifoBuffer.contents after.streamBuffer = FifoBuffer.contents buffer ++ encode sent := by
  have passes := ostream_passes (β := β) (FifoBuffer.contents buffer ++ encode sent)
  obtain ⟨result, after, runs, same, before, held, whole⟩ :=
    serialize_passes passes valid (fun _ => rfl) (OByteStream.mk buffer utf8) []
      ⟨FifoBuffer.contents buffer, rfl, by rw [List.append_nil]⟩
  rw [List.append_nil] at whole
  have unchanged : merged id sent sent = sent := rfl
  rw [same, unchanged] at runs
  exact ⟨after, runs, held.trans whole⟩

theorem spec_read {sent : ServerSpec} (valid : sent.Valid) (received : ServerSpec) (buffer : γ)
    (utf8 : Bool) {rest : List UInt8} (contents : FifoBuffer.contents buffer = encode sent ++ rest) :
    ∃ after, Runs (serialize istream received) (IByteStream.mk buffer utf8)
        (merged (List.take ushrtMax) sent received) after ∧
      FifoBuffer.contents after.streamBuffer = rest := by
  obtain ⟨result, after, runs, same, held⟩ :=
    serialize_passes istream_passes valid False.elim (IByteStream.mk buffer utf8) rest contents
  rw [same] at runs
  exact ⟨after, runs, held⟩

/-- A specification that was written is read from all its bytes, whatever the object held
before, and is the same exactly when that object held the address of the monitor and the
limit of pendable packets already. -/
theorem server_spec_survives_iff (sent : ServerSpec) (valid : sent.Valid) :
    ∃ bytes,
      (∀ (buffer : β) (utf8 : Bool), ∃ after,
        Runs (serialize ostream sent) (OByteStream.mk buffer utf8) sent after ∧
        FifoBuffer.contents after.streamBuffer = FifoBuffer.contents buffer ++ bytes) ∧
      ∀ (received : ServerSpec) (buffer : γ) (utf8 : Bool) (rest : List UInt8),
        FifoBuffer.contents buffer = bytes ++ rest →
        ∃ result after, Runs (serialize istream received) (IByteStream.mk buffer utf8) result after ∧
          FifoBuffer.contents after.streamBuffer = rest ∧
          (result = sent ↔ received.monitorAddress = sent.monitorAddress ∧
            received.sessionCapacity.maxPendablePacketCount =
              sent.sessionCapacity.maxPendablePacketCount ∧
            sent.certificate.length ≤ ushrtMax) := by
  refine ⟨encode sent, spec_written valid, ?_⟩
  intro received buffer utf8 rest contents
  obtain ⟨after, runs, held⟩ := spec_read valid received buffer utf8 contents
  exact ⟨_, after, runs, held, merged_eq_iff sent received⟩

end Streams

section Monitor

def monitored : ServerSpec :=
  { ServerSpec.initial with
    name := [108, 111, 103, 105, 110]
    listeningAddresses := [[49, 48, 46, 48], []]
    monitorAddress := [49, 50, 55]
    sessionCapacity :=
      { maxBytesPerSecond := 1024, secondsForThrottling := 3, maxPendablePacketCount := 100 } }

def informed : ServerSpec :=
  { ServerSpec.initial with
    monitorAddress := [49, 50, 55]
    sessionCapacity :=
      { maxBytesPerSecond := 0, secondsForThrottling := 0, maxPendablePacketCount := 100 } }

theorem monitored_valid : monitored.Valid := by
  constructor
  · decide
  · decide
  · decide
  · decide

theorem server_spec_survives_informed :
    ∃ written after,
      Runs (serialize ostream monitored) (OByteStream.mk (ByteQueue.mk []) true) monitored written ∧
      Runs (serialize istream informed) (IByteStream.mk written.streamBuffer true) monitored after := by
  obtain ⟨bytes, writes, reads⟩ :=
    server_spec_survives_iff (β := ByteQueue) (γ := ByteQueue) monitored monitored_valid
  obtain ⟨written, writeRuns, contents⟩ := writes (ByteQueue.mk []) true
  rw [← List.append_nil bytes] at contents
  obtain ⟨result, after, readRuns, _, same⟩ := reads informed written.streamBuffer true [] contents
  rw [same.mpr ⟨rfl, rfl, Nat.zero_le _⟩] at readRuns
  exact ⟨written, after, writeRuns, readRuns⟩

/-- Read into a new object, the specification has lost both fields. -/
theorem monitor_is_lost :
    ∃ written after result,
      Runs (serialize ostream monitored) (OByteStream.mk (ByteQueue.mk []) true) monitored written ∧
      Runs (serialize istream ServerSpec.initial)
    (IByteStream.mk written.streamBuffer true) result after ∧
      result.monitorAddress ≠ monitored.monitorAddress ∧
      result.sessionCapacity.maxPendablePacketCount ≠
        monitored.sessionCapacity.maxPendablePacketCount := by
  obtain ⟨written, writeRuns, contents⟩ := spec_written monitored_valid (ByteQueue.mk []) true
  rw [← List.append_nil (encode monitored)] at contents
  obtain ⟨after, readRuns, _⟩ :=
    spec_read monitored_valid ServerSpec.initial written.streamBuffer true contents
  refine ⟨written, after, _, writeRuns, readRuns, ?_, ?_⟩
  · decide
  · decide

end Monitor

end Sne.Server.Specification
