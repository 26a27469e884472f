import Sne.Database.Delegation
import Sne.Session.MessagingExtension

/-!
# The registered messages over a connection

The classes of `CsMessage.h`, `S2sMessage.h` and `DatabaseProxyMessage.h`, for which sessions and
bridges call `registerMessageCallback`. A `serialize` method reads into the one object of its class,
field by field. The callbacks of two connected sessions are called with the messages that the other
end has accepted for them, in their order.
-/

namespace Sne.Server

open Sne.Base Sne.Core Sne.Database Sne.Session Sne.Sgp Sne.Srpc Sne.Library.Exec Sne.Library.Codec
open Sne.Library.Runs

set_option autoImplicit false

def readField {Object σ α : Type} (read : StreamM σ α) (assign : Object → α → Object) :
    StreamM (Object × σ) Unit := do
  let value ← focus Prod.snd (fun state istream => (state.1, istream)) read
  modify fun state => (assign state.1 value, state.2)

theorem runs_field {Object σ α : Type} {read : StreamM σ α} {istream after : σ} {value : α}
    (runs : Runs read istream value after) (assign : Object → α → Object) (object : Object) :
    Runs (readField read assign) (object, istream) () (assign object value, after) := by
  have focused : Runs (focus Prod.snd (fun state istream => (state.1, istream)) read)
      (object, istream) value (object, after) := runs.focus
  exact focused.bind (runs_modify _ _)

inductive RegisteredMessage where
  | heartbeat
  | exchangeSeed
  | exchangePublicKey
  | confirmSeed
  | authenticate
  | authenticateResult
  | delegate
  deriving DecidableEq, Repr

namespace RegisteredMessage

def messageType : RegisteredMessage → MessageType
  | heartbeat => csmtSystemHeartbeat
  | exchangeSeed => csmtSystemExchangeSeed
  | exchangePublicKey => csmtSystemExchangePublicKey
  | confirmSeed => csmtSystemConfirmSeed
  | authenticate => s2smtSystemAuthenticate
  | authenticateResult => s2smtSystemAuthenticateResult
  | delegate => dbpmtSystemDelegate

abbrev Fields : RegisteredMessage → Type
  | heartbeat => Unit
  | exchangeSeed => ExchangeSeedMessage
  | exchangePublicKey => ExchangePublicKeyMessage
  | confirmSeed => Unit
  | authenticate => S2sAuthenticateMessage
  | authenticateResult => S2sAuthenticateResultMessage
  | delegate => DbpDelegateMessage

def initial : (of : RegisteredMessage) → of.Fields
  | heartbeat => ()
  | exchangeSeed => {}
  | exchangePublicKey => { publicKey := [] }
  | confirmSeed => ()
  | authenticate => { certificate := [] }
  | authenticateResult => { authenticated := false }
  | delegate => { request := .initial }

def write {τ : Type} [OStream τ] : (of : RegisteredMessage) → of.Fields → StreamM τ Unit
  | heartbeat, _ => CsMessage.heartbeat.write
  | exchangeSeed, message => (CsMessage.exchangeSeed message).write
  | exchangePublicKey, message => (CsMessage.exchangePublicKey message).write
  | confirmSeed, _ => CsMessage.confirmSeed.write
  | authenticate, message => writeText message.certificate
  | authenticateResult, message => message.write
  | delegate, message => message.write

def read {σ : Type} [IStream σ] : (of : RegisteredMessage) → StreamM (of.Fields × σ) Unit
  | heartbeat => pure ()
  | exchangeSeed => do
      readField readText fun message publicKey => { message with publicKey }
      readField readText fun message seedForEncrypt => { message with seedForEncrypt }
      readField readText fun message seedForDecrypt => { message with seedForDecrypt }
  | exchangePublicKey => readField readText fun _ => ExchangePublicKeyMessage.mk
  | confirmSeed => pure ()
  | authenticate => readField readText fun _ => S2sAuthenticateMessage.mk
  | authenticateResult => readField (IStream.readBool 1) fun _ => S2sAuthenticateResultMessage.mk
  | delegate => readField ModifyRequest.initial.read fun _ => DbpDelegateMessage.mk

def classes (τ σ : Type) [OStream τ] [IStream σ] : MessageClasses RegisteredMessage τ σ :=
  { messageType, Fields, write, read }

/-- The strings fit into their size fields. -/
def Valid : (of : RegisteredMessage) → of.Fields → Prop
  | heartbeat, _ => True
  | exchangeSeed, message => message.publicKey.length ≤ ushrtMax ∧
      message.seedForEncrypt.length ≤ ushrtMax ∧ message.seedForDecrypt.length ≤ ushrtMax
  | exchangePublicKey, message => message.publicKey.length ≤ ushrtMax
  | confirmSeed, _ => True
  | authenticate, message => message.certificate.length ≤ ushrtMax
  | authenticateResult, _ => True
  | delegate, message => message.request.Valid

/-- The objects are equal, but for the unused fields of the parameters of a request. -/
def Same : (of : RegisteredMessage) → of.Fields → of.Fields → Prop
  | heartbeat, _, _ => True
  | exchangeSeed, message, read => read = message
  | exchangePublicKey, message, read => read = message
  | confirmSeed, _, _ => True
  | authenticate, message, read => read = message
  | authenticateResult, message, read => read = message
  | delegate, message, read => message.request.Same read.request

def encode : (of : RegisteredMessage) → of.Fields → List UInt8
  | heartbeat, _ => []
  | exchangeSeed, message => stringBytes 16 message.publicKey ++
      (stringBytes 16 message.seedForEncrypt ++ stringBytes 16 message.seedForDecrypt)
  | exchangePublicKey, message => stringBytes 16 message.publicKey
  | confirmSeed, _ => []
  | authenticate, message => stringBytes 16 message.certificate
  | authenticateResult, message => NumericType.encode .bool message.authenticated
  | delegate, message => message.request.encode

section ByteStreams

variable {β : Type} [FifoBuffer β]

theorem writes_text (text : List UInt8) (short : text.length ≤ ushrtMax) :
    Writes OByteStream.Holds (writeText text : StreamM (OByteStream β) Unit) (stringBytes 16 text) :=
  writes_string Param.string_size_field text short

theorem reads_text (text : List UInt8) (short : text.length ≤ ushrtMax) :
    Reads IByteStream.Holds (readText : StreamM (IByteStream β) (List UInt8)) (stringBytes 16 text)
      fun read => read = text :=
  reads_string Param.string_size_field text short

theorem writes (of : RegisteredMessage) (message : of.Fields) (valid : Valid of message) :
    Writes OByteStream.Holds (of.write message : StreamM (OByteStream β) Unit) (of.encode message) := by
  cases of with
  | heartbeat => exact writes_pure
  | exchangeSeed =>
      apply (writes_text message.publicKey valid.1).bind
      apply (writes_text message.seedForEncrypt valid.2.1).bind
      exact writes_text message.seedForDecrypt valid.2.2
  | exchangePublicKey => exact writes_text message.publicKey valid
  | confirmSeed => exact writes_pure
  | authenticate => exact writes_text message.certificate valid
  | authenticateResult => exact NumericType.writes .bool 1 message.authenticated
  | delegate => exact message.request.writes valid

theorem reads_into (of : RegisteredMessage) (message object : of.Fields) (valid : Valid of message)
    (istream : IByteStream β) (rest : List UInt8) (held : istream.Holds (of.encode message ++ rest)) :
    ∃ read after, Runs (of.read : StreamM (of.Fields × IByteStream β) Unit) (object, istream) ()
      (read, after) ∧ Same of message read := by
  cases of with
  | heartbeat => exact ⟨object, istream, runs_pure _ _, trivial⟩
  | exchangeSeed =>
      simp only [encode, List.append_assoc] at held
      obtain ⟨_, second, readsKey, rfl, held⟩ := reads_text message.publicKey valid.1 istream _ held
      obtain ⟨_, third, readsEncrypt, rfl, held⟩ := reads_text message.seedForEncrypt valid.2.1 second _ held
      obtain ⟨_, last, readsDecrypt, rfl, _⟩ := reads_text message.seedForDecrypt valid.2.2 third _ held
      exact ⟨message, last, (runs_field readsKey _ _).bind
        ((runs_field readsEncrypt _ _).bind (runs_field readsDecrypt _ _)), rfl⟩
  | exchangePublicKey =>
      obtain ⟨_, after, reads, rfl, _⟩ := reads_text message.publicKey valid istream rest held
      exact ⟨message, after, runs_field reads (fun _ => ExchangePublicKeyMessage.mk) object, rfl⟩
  | confirmSeed => exact ⟨object, istream, runs_pure _ _, trivial⟩
  | authenticate =>
      obtain ⟨_, after, reads, rfl, _⟩ := reads_text message.certificate valid istream rest held
      exact ⟨message, after, runs_field reads (fun _ => S2sAuthenticateMessage.mk) object, rfl⟩
  | authenticateResult =>
      obtain ⟨_, after, reads, rfl, _⟩ := NumericType.reads .bool 1 message.authenticated istream rest held
      exact ⟨message, after, runs_field reads (fun _ => S2sAuthenticateResultMessage.mk) object, rfl⟩
  | delegate =>
      obtain ⟨request, after, reads, same, _⟩ :=
        message.request.reads valid ModifyRequest.initial istream rest held
      exact ⟨⟨request⟩, after, runs_field reads (fun _ => DbpDelegateMessage.mk) object, same⟩

end ByteStreams

def carries : CarriesMessages (classes (OByteStream MemoryBlockStreamBuffer) (IByteStream ByteQueue)) where
  Settled _ := True
  Valid message := Valid message.1 message.2
  Same := Same
  encode message := message.1.encode message.2
  serializes message valid acquired ostream _ := by
    obtain ⟨next, serialized, held⟩ := serialize_runs OByteStream.Holds
      (message.1.writes message.2 valid) (fun _ _ _ => runs_pure _ _) acquired ostream rfl
    exact ⟨_, next, serialized, held, trivial⟩
  reads message valid mblock istream object rest contents :=
    message.1.reads_into message.2 object valid (deserialize mblock istream) rest contents

end RegisteredMessage

section Dispatching

open Session.Connection

variable {Class τ σ κ : Type} [DecidableEq Class] [BlockOStream τ] [BlockIStream σ] [PlainHeaderCoder κ]
variable {classes : MessageClasses Class τ σ} {coders : DuplexCoders κ}

/-- What the callbacks of one end were called with, when the other has accepted messages of theirs. -/
def Dispatches (carries : CarriesMessages classes) (first : MessagingExtension classes)
    (sender receiver : Endpoint κ (MessagingExtension classes)) : Prop :=
  ∀ messages, (∀ message ∈ messages, carries.Valid message) →
    List.Forall₂ carries.WrittenAs messages (sender.sent.filterMap first.ofClass) →
    ∃ called invoked, called.Sublist messages ∧ (receiver.hasDropped = false → called <+: messages) ∧
      (Endpoint.Drained sender receiver → called = messages) ∧
      receiver.context.calls = first.calls ++ invoked ∧ carries.Calls called invoked

omit [DecidableEq Class] [BlockOStream τ] [BlockIStream σ] in
theorem opened_of_class (first : MessagingExtension classes)
    (messages : List (MessageType × List UInt8)) :
    (messages.map coders.opened).filterMap first.ofClass =
      (messages.filterMap first.ofClass).map fun body => (body.1, padded coders.blockSize body.2) := by
  rw [List.filterMap_map, List.map_filterMap]
  congr 1
  funext message
  simp only [Function.comp, MessagingExtension.ofClass, Option.map_map]
  rfl

omit [DecidableEq Class] in
theorem dispatches_of_flow {carries : CarriesMessages classes} {first : MessagingExtension classes}
    {sender receiver : Endpoint κ (MessagingExtension classes)}
    (flow : Endpoint.Flow coders sender receiver) (recorded : receiver.Recorded)
    (dispatched : carries.Dispatched coders.blockSize first receiver.context receiver.arrived)
    (connected : receiver.isConnected = true) : Dispatches carries first sender receiver := by
  intro messages valid written
  have sent : (sender.sent.map coders.opened).filterMap first.ofClass =
      messages.map (carries.opened coders.blockSize) := by
    rw [opened_of_class, CarriesMessages.written_bodies written valid, List.map_map]
    rfl
  obtain ⟨called, arrived, isPart, isFront, isWhole⟩ := flow.selected recorded connected sent
  obtain ⟨invoked, calls, each⟩ := dispatched.calls called arrived
    fun message member => valid message (isPart.subset member)
  exact ⟨called, invoked, isPart, isFront, isWhole, calls, each⟩

/-- Whatever the two ends do, the callbacks of each are called with the messages that the other has
accepted for them, in their order and once each, read into the objects of their classes. -/
theorem messages_dispatched_over_connection {carries : CarriesMessages classes}
    {others : Side → MarshallerCallback κ σ} (leaves : ∀ side, LeavesCoder (others side))
    {first last : Session.Connection κ (MessagingExtension classes)}
    {labels : List (Side × Endpoint.Label)}
    (near : first.near.Starts coders) (far : first.far.Starts coders)
    (toFar : coders.sending first.near.coder = coders.receiving first.far.coder)
    (toNear : coders.sending first.far.coder = coders.receiving first.near.coder)
    (run : Run (Where (Step fun side => MessagingExtension.sessionHandles (others side)) (Orderly coders))
      first labels last) :
    (last.far.isConnected = true → Dispatches carries first.far.context last.near last.far) ∧
      (last.near.isConnected = true → Dispatches carries first.near.context last.far last.near) := by
  have flows := flows_of_run (fun side => MessagingExtension.session_handles_leaves (leaves side)) near far
    toFar toNear run
  have dispatched :
      carries.Dispatched coders.blockSize first.near.context last.near.context last.near.arrived ∧
      carries.Dispatched coders.blockSize first.far.context last.far.context last.far.arrived := by
    apply run.invariant fun _ connection =>
      carries.Dispatched coders.blockSize first.near.context connection.near.context
        connection.near.arrived ∧
        carries.Dispatched coders.blockSize first.far.context connection.far.context connection.far.arrived
    · rw [near.arrived, far.arrived]
      exact ⟨CarriesMessages.dispatched_nothing _, CarriesMessages.dispatched_nothing _⟩
    · rintro _ connection ⟨side, label⟩ next before step
      cases side with
      | near =>
          obtain ⟨_, moves, kept⟩ := step.1.of_near
          rw [kept]
          exact ⟨moves.keeps_arrived (CarriesMessages.session_handles_dispatches carries _ _ (others .near))
            before.1, before.2⟩
      | far =>
          obtain ⟨_, moves, kept⟩ := step.1.of_far
          rw [kept]
          exact ⟨before.1, moves.keeps_arrived
            (CarriesMessages.session_handles_dispatches carries _ _ (others .far)) before.2⟩
  exact ⟨dispatches_of_flow flows.toFar flows.farRecorded dispatched.2,
    dispatches_of_flow flows.toNear flows.nearRecorded dispatched.1⟩

end Dispatching

section Concrete

open SendLedger RegisteredMessage

abbrev ByteClasses : MessageClasses RegisteredMessage (OByteStream MemoryBlockStreamBuffer)
    (IByteStream ByteQueue) :=
  classes _ _

def registered (of : RegisteredMessage) : MessagingExtension ByteClasses :=
  MessagingExtension.registerMessageCallback of (initial of)
    { callbacks := [], objects := initial, calls := []
      istream := { streamBuffer := ⟨[]⟩, shouldUseUtf8ForString := true } }

def awaitingKey : Session.Connection CsPacketCoder (MessagingExtension ByteClasses) :=
  { near := .opened 0 smallMarshaller 0 (registered .heartbeat)
    far := .opened 0 smallMarshaller 0 (registered .exchangePublicKey) }

def sentBlock (address : Nat) (body : List UInt8) : BlockPointer :=
  ⟨address, (smallMarshaller.acquireSendBlock (.create 8)).copyFrom body⟩

def sendingKey : List (Side × Endpoint.Label) :=
  [(.near, .session (.sendMessage (sentBlock 0 [1, 0, 107]) csmtSystemExchangePublicKey)),
    (.near, .session (.handler 0)), (.far, .read 0 [3, 0, 2, 1] [] true),
    (.far, .read 0 [0, 107] [.sendMessage (sentBlock 1 []) csmtSystemHeartbeat] true),
    (.far, .session (.handler 0)), (.near, .read 0 [0, 0, 0] [] true)]

def ignoring : Side → MarshallerCallback CsPacketCoder (MessagingExtension ByteClasses) :=
  fun _ => MessagingExtension.sessionHandles fun _ state => .ok false state

def keyMessage : ByteClasses.Message := ⟨.exchangePublicKey, { publicKey := [107] }⟩

theorem key_message_written :
    RegisteredMessage.carries.WrittenAs keyMessage (.exchangePublicKey, [1, 0, 107]) :=
  ⟨rfl, ⟨.create 8, Nat.le_refl _, Nat.zero_le _⟩,
    { streamBuffer := ⟨.create 8, Nat.le_refl _, Nat.zero_le _⟩, shouldUseUtf8ForString := true },
    _, _, trivial, rfl, rfl⟩

theorem messages_dispatched_over_connection_key :
    ∃ last invoked, Run (Where (Connection.Step ignoring) (Connection.Orderly plainDuplex)) awaitingKey
      sendingKey last ∧ last.near.context.calls.map Sigma.fst = [.heartbeat] ∧
      Dispatches RegisteredMessage.carries awaitingKey.near.context last.far last.near ∧
      last.far.context.calls = invoked ∧ RegisteredMessage.carries.Calls [keyMessage] invoked := by
  have executes : (execute (guarded (Connection.advance ignoring) (Connection.Orderly plainDuplex))
      awaitingKey
      sendingKey).map (fun last => ((last.far.isConnected, last.far.context.calls.length,
          decide (last.near.sent = [(csmtSystemExchangePublicKey, [1, 0, 107])])),
        last.near.isConnected, last.near.context.calls.map Sigma.fst)) =
        some ((true, 1, true), true, [.heartbeat]) := by
    decide +kernel
  rcases Run.of_guarded (Connection.Step ignoring) (Connection.Orderly plainDuplex)
      (fun _ _ _ taken => taken)
    executes with ⟨last, run, facts⟩
  simp only [Prod.mk.injEq] at facts
  obtain ⟨⟨farConnected, count, sent⟩, nearConnected, classesCalled⟩ := facts
  have leaves : ∀ side : Side, LeavesCoder (κ := CsPacketCoder) (χ := IByteStream ByteQueue)
      fun _ state => .ok false state :=
    fun _ _ _ mblock context => ⟨mblock, context, .inr (.inl rfl)⟩
  have near : awaitingKey.near.Starts plainDuplex := Endpoint.opened_starts 0 0 _ rfl
  have far : awaitingKey.far.Starts plainDuplex := Endpoint.opened_starts 0 0 _ rfl
  have dispatches :
      (last.far.isConnected = true →
        Dispatches RegisteredMessage.carries awaitingKey.far.context last.near last.far) ∧
      (last.near.isConnected = true →
        Dispatches RegisteredMessage.carries awaitingKey.near.context last.far last.near) :=
    messages_dispatched_over_connection leaves near far rfl rfl run
  have written : List.Forall₂ RegisteredMessage.carries.WrittenAs [keyMessage]
      (last.near.sent.filterMap awaitingKey.far.context.ofClass) := by
    rw [of_decide_eq_true sent]
    exact .cons key_message_written .nil
  have short : ∀ message ∈ [keyMessage], RegisteredMessage.carries.Valid message := by
    intro message member
    rw [List.mem_singleton.mp member]
    exact (by decide : 1 ≤ ushrtMax)
  obtain ⟨called, invoked, part, _, _, calls, each⟩ := dispatches.1 farConnected [keyMessage] short written
  have one : called.length = 1 := by
    rw [each.length_eq, ← count, calls]
    rfl
  rw [part.eq_of_length one] at each
  exact ⟨last, invoked, run, classesCalled, dispatches.2 nearConnected, calls, each⟩

end Concrete

end Sne.Server
