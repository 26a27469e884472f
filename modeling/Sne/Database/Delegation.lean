import Sne.Database.DatabaseProxySession
import Sne.Database.ProxyServer
import Sne.Session.Connection
import Sne.Srpc.SgpRpcNetwork

/-!
# Requests of a client at the database

`DatabaseClientSideProxy.cpp` at one end of a connection and the session of the database
proxy at the other. Each request that the client calls is a message of its own. The session
schedules what it deserializes, and the workers of the proxy execute it.
-/

namespace Sne.Database

open Sne.Base Sne.Core Sne.Session Sne.Sgp Sne.Server Sne.Srpc Sne.Library.Runs Sne.Library.Exec
open Sne.Library.Codec

set_option autoImplicit false

def DbpDelegateMessage.write {τ : Type} [OStream τ] (message : DbpDelegateMessage) : StreamM τ Unit :=
  message.request.write

/-- `DatabaseClientSideProxy::call`: the block of the message, behind its header. -/
def DatabaseClientSideProxy.call (request : ModifyRequest) (acquired : MemoryBlockStreamBuffer)
    (ostream : OByteStream MemoryBlockStreamBuffer) :
    Option MemoryBlock × OByteStream MemoryBlockStreamBuffer :=
  Srpc.serialize (DbpDelegateMessage.write { request }) acquired ostream

def delegateBodies (messages : List (MessageType × List UInt8)) : List (List UInt8) :=
  messages.filterMap fun message => if message.1 = dbpmtSystemDelegate then some message.2 else none

def scheduledBy (effects : List ProxyEffect) : List ModifyRequest :=
  effects.filterMap fun
    | .schedule request => some request
    | _ => none

namespace DatabaseProxyServerSideSession

variable {κ χ : Type} (service : DatabaseProxyService) (config : ServerSideSessionConfig)

/-- `messageUnmarshalled` with the two callbacks of the session, and with what else it has registered. -/
def handles (others : MarshallerCallback κ χ) : MarshallerCallback κ (List ProxyEffect × χ) :=
  fun messageType state =>
    match messageReceived service config messageType state.2.1.contents with
    | some (.ok effects) => .ok true (state.1, state.2.1, (state.2.2.1 ++ effects, state.2.2.2))
    | some (.error _) => .ok false state
    | none =>
        focus (fun state => (state.1, state.2.1, state.2.2.2))
          (fun state inner => (inner.1, inner.2.1, (state.2.2.1, inner.2.2))) (others messageType) state

theorem handles_leaves {others : MarshallerCallback κ χ} (leaves : LeavesCoder others) :
    LeavesCoder (handles service config others) := by
  intro messageType coder mblock context
  unfold handles
  dsimp only
  cases messageReceived service config messageType mblock.contents with
  | some received =>
      cases received with
      | ok effects => exact ⟨mblock, (context.1 ++ effects, context.2), .inl rfl⟩
      | error e => exact ⟨mblock, context, .inr (.inl rfl)⟩
  | none =>
      simp only [focus]
      obtain ⟨after, next, accepted | refused | ⟨e, failed⟩⟩ :=
        leaves messageType coder mblock context.2
      · rw [accepted]
        exact ⟨after, (context.1, next), .inl rfl⟩
      · rw [refused]
        exact ⟨after, (context.1, next), .inr (.inl rfl)⟩
      · rw [failed]
        exact ⟨after, (context.1, next), .inr (.inr ⟨e, rfl⟩)⟩

end DatabaseProxyServerSideSession

section Bodies

theorem delegate_bodies_append (messages more : List (MessageType × List UInt8)) :
    delegateBodies (messages ++ more) = delegateBodies messages ++ delegateBodies more :=
  List.filterMap_append

theorem scheduled_by_append (effects more : List ProxyEffect) :
    scheduledBy (effects ++ more) = scheduledBy effects ++ scheduledBy more :=
  List.filterMap_append

theorem call_body (request : ModifyRequest) (valid : request.Valid) (acquired : MemoryBlockStreamBuffer)
    (ostream : OByteStream MemoryBlockStreamBuffer) :
    ∃ mblock next, DatabaseClientSideProxy.call request acquired ostream = (some mblock, next) ∧
      mblock.contents = acquired.block.contents ++ request.encode := by
  obtain ⟨next, serialized, held⟩ := serialize_runs OByteStream.Holds (request.writes valid)
    (fun _ _ _ => runs_pure _ _) acquired ostream rfl
  exact ⟨_, next, serialized, held⟩

theorem deserialize_runs {α : Type} {factory : SneStreamFactory} (bytes : factory.useBitPacking = false)
    (read : {σ : Type} → [IStream σ] → StreamM σ α) {body : List UInt8} {value : α}
    {rest : IByteStream ByteQueue}
    (runs : Runs read (IByteStream.mk (ByteQueue.mk body) factory.shouldUseUtf8ForString) value rest) :
    factory.deserialize read body = .ok value := by
  have result : read (IByteStream.mk (ByteQueue.mk body) factory.shouldUseUtf8ForString) =
      .ok value rest := runs
  unfold SneStreamFactory.deserialize
  simp only [bytes, Bool.false_eq_true, if_false, result]

/-- Whatever stands behind the body, the session reads the request. -/
theorem delegate_received (service : DatabaseProxyService) {config : ServerSideSessionConfig}
    (bytes : config.streamFactory.useBitPacking = false) {request : ModifyRequest}
    (valid : request.Valid) (padding : List UInt8) :
    ∃ read, request.Same read ∧
      DatabaseProxyServerSideSession.messageReceived service config dbpmtSystemDelegate
        (request.encode ++ padding) = some (.ok [.schedule read]) := by
  obtain ⟨read, rest, runs, same, _⟩ := request.reads valid ModifyRequest.initial
    (IByteStream.mk (ByteQueue.mk (request.encode ++ padding)) config.streamFactory.shouldUseUtf8ForString)
    padding rfl
  refine ⟨read, same, ?_⟩
  unfold DatabaseProxyServerSideSession.messageReceived
  rw [if_neg (by decide), if_pos rfl]
  rw [deserialize_runs bytes DbpDelegateMessage.read (runs.bind (runs_pure _ _))]
  rfl

def ArrivedFrom (blockSize : Nat) (requests : List ModifyRequest)
    (messages : List (MessageType × List UInt8)) : Prop :=
  delegateBodies messages = requests.map fun request => padded blockSize request.encode

/-- Every list of valid requests which the messages are the bodies of has been scheduled, in its order. -/
def Schedules {χ : Type} (blockSize : Nat) (context : List ProxyEffect × χ)
    (messages : List (MessageType × List UInt8)) : Prop :=
  ∀ requests, ArrivedFrom blockSize requests messages → (∀ request ∈ requests, request.Valid) →
    List.Forall₂ ModifyRequest.Same requests (scheduledBy context.1)

theorem schedules_other {χ : Type} {blockSize : Nat} {context : List ProxyEffect × χ}
    {messages : List (MessageType × List UInt8)} (schedules : Schedules blockSize context messages)
    {messageType : MessageType} (other : messageType ≠ dbpmtSystemDelegate) (body : List UInt8)
    {next : List ProxyEffect × χ} (same : scheduledBy next.1 = scheduledBy context.1) :
    Schedules blockSize next (messages ++ [(messageType, body)]) := by
  intro requests arrived valid
  have unchanged : delegateBodies (messages ++ [(messageType, body)]) = delegateBodies messages := by
    rw [delegate_bodies_append]
    simp [delegateBodies, other]
  rw [ArrivedFrom, unchanged] at arrived
  rw [same]
  exact schedules requests arrived valid

theorem schedules_delegate {χ : Type} {service : DatabaseProxyService} {config : ServerSideSessionConfig}
    (bytes : config.streamFactory.useBitPacking = false) {blockSize : Nat}
    {context next : List ProxyEffect × χ} {messages : List (MessageType × List UInt8)}
    (schedules : Schedules blockSize context messages) {body : List UInt8}
    (received : ∀ effects,
      DatabaseProxyServerSideSession.messageReceived service config dbpmtSystemDelegate body =
        some (.ok effects) → scheduledBy next.1 = scheduledBy context.1 ++ scheduledBy effects) :
    Schedules blockSize next (messages ++ [(dbpmtSystemDelegate, body)]) := by
  intro requests arrived valid
  rw [ArrivedFrom, delegate_bodies_append] at arrived
  obtain ⟨earlier, last, rfl, before, lastBody⟩ := List.map_eq_append_iff.mp arrived.symm
  obtain ⟨request, rfl, sameBody⟩ := List.map_eq_singleton_iff.mp lastBody
  obtain ⟨read, same, reads⟩ := delegate_received service bytes
    (valid request (List.mem_append_right _ (List.mem_singleton_self _)))
    (List.replicate (fill blockSize request.encode.length) 0)
  have shown : body = request.encode ++ List.replicate (fill blockSize request.encode.length) 0 :=
    sameBody.symm
  rw [← shown] at reads
  rw [received _ reads]
  exact List.rel_append (schedules earlier before.symm fun other member =>
    valid other (List.mem_append_left _ member)) (.cons same .nil)

/-- An authentication schedules nothing. -/
theorem others_schedule_nothing {service : DatabaseProxyService} {config : ServerSideSessionConfig}
    {messageType : MessageType} (other : messageType ≠ dbpmtSystemDelegate) {body : List UInt8}
    {effects : List ProxyEffect}
    (received : DatabaseProxyServerSideSession.messageReceived service config messageType body =
      some (.ok effects)) : scheduledBy effects = [] := by
  unfold DatabaseProxyServerSideSession.messageReceived at received
  rw [if_neg other] at received
  split at received
  · cases message : config.streamFactory.deserialize S2sAuthenticateMessage.read body with
    | error e =>
        rw [message] at received
        cases received
    | ok message =>
        rw [message] at received
        cases received
        unfold DatabaseProxyServerSideSession.authenticateMessageReceived
        dsimp only
        split <;> rfl
  · cases received

theorem handles_schedules {κ χ : Type} (service : DatabaseProxyService)
    {config : ServerSideSessionConfig}
    (bytes : config.streamFactory.useBitPacking = false) (blockSize : Nat)
    (others : MarshallerCallback κ χ) :
    Endpoint.KeepsArrived (DatabaseProxyServerSideSession.handles service config others)
      (Schedules blockSize) := by
  intro messageType coder mblock context messages schedules
  unfold DatabaseProxyServerSideSession.handles
  dsimp only
  by_cases delegate : messageType = dbpmtSystemDelegate
  · subst delegate
    cases received : DatabaseProxyServerSideSession.messageReceived service config dbpmtSystemDelegate
        mblock.contents with
    | none =>
        unfold DatabaseProxyServerSideSession.messageReceived at received
        rw [if_neg (by decide), if_pos rfl] at received
        cases received
    | some result =>
        cases result with
        | ok effects =>
            apply schedules_delegate bytes schedules
            intro reads same
            cases received.symm.trans same
            exact scheduled_by_append _ _
        | error e =>
            apply schedules_delegate bytes schedules
            intro reads same
            cases received.symm.trans same
  · cases received : DatabaseProxyServerSideSession.messageReceived service config messageType
        mblock.contents with
    | none =>
        simp only [focus]
        cases others messageType (coder, mblock, context.2) with
        | ok accepted after => exact schedules_other schedules delegate _ rfl
        | error e after => exact schedules_other schedules delegate _ rfl
    | some result =>
        cases result with
        | ok effects =>
            apply schedules_other schedules delegate
            rw [scheduled_by_append, others_schedule_nothing delegate received, List.append_nil]
        | error e => exact schedules_other schedules delegate _ rfl

end Bodies

section Execution

variable {κ χ : Type} [PlainHeaderCoder κ] {coders : DuplexCoders κ}

/-- The body is what a call of the proxy has put behind the header of a block. -/
def CallWrites (request : ModifyRequest) (body : List UInt8) : Prop :=
  ∃ acquired ostream mblock next,
    DatabaseClientSideProxy.call request acquired ostream = (some mblock, next) ∧
      mblock.contents = acquired.block.contents ++ body

/-- The requests of an end: its messages of that type come from the calls of them. -/
structure Called (requests : List ModifyRequest) (sent : List (MessageType × List UInt8)) : Prop where
  bodies : List.Forall₂ CallWrites requests (delegateBodies sent)
  valid : ∀ request ∈ requests, request.Valid

theorem called_bodies {requests : List ModifyRequest} {bodies : List (List UInt8)}
    (writes : List.Forall₂ CallWrites requests bodies) (valid : ∀ request ∈ requests, request.Valid) :
    bodies = requests.map ModifyRequest.encode := by
  induction writes with
  | nil => rfl
  | @cons request body _ _ first _ induction =>
      obtain ⟨acquired, ostream, mblock, next, calls, contents⟩ := first
      obtain ⟨written, after, writes, isWritten⟩ :=
        call_body request (valid request List.mem_cons_self) acquired ostream
      cases calls.symm.trans writes
      rw [List.map_cons, List.append_cancel_left (contents.symm.trans isWritten),
        induction fun other member => valid other (List.mem_cons_of_mem _ member)]

/-- Everything that was accepted has been written, read and handled. -/
structure Drained (sender receiver : Endpoint κ (List ProxyEffect × χ)) : Prop where
  isConnected : sender.isConnected = true
  outputQueue : sender.session.outputQueue = []
  isDisconnectRequested : receiver.connection.isDisconnectRequested = false
  hasDropped : receiver.hasDropped = false
  read : receiver.read = sender.written

theorem delegate_bodies_opened (messages : List (MessageType × List UInt8)) :
    delegateBodies (messages.map coders.opened) =
      (delegateBodies messages).map (padded coders.blockSize) := by
  rw [delegateBodies, List.filterMap_map, delegateBodies, List.map_filterMap]
  congr 1
  funext message
  by_cases delegate : message.1 = dbpmtSystemDelegate
  · rw [if_pos delegate]
    exact if_pos delegate
  · rw [if_neg delegate]
    exact if_neg delegate

theorem arrived_of_flow {requests : List ModifyRequest}
    {sender receiver : Endpoint κ (List ProxyEffect × χ)} (flow : Endpoint.Flow coders sender receiver)
    (recorded : receiver.Recorded) (connected : receiver.isConnected = true)
    (called : Called requests sender.sent) :
    ∃ delegated, ArrivedFrom coders.blockSize delegated receiver.arrived ∧ delegated.Sublist requests ∧
      (receiver.hasDropped = false → delegated <+: requests) ∧
      (Drained sender receiver → delegated = requests) := by
  have sentBodies : delegateBodies (sender.sent.map coders.opened) =
      requests.map fun request => padded coders.blockSize request.encode := by
    rw [delegate_bodies_opened, called_bodies called.bodies called.valid, List.map_map]
    rfl
  obtain ⟨delegated, arrived, few, front, whole⟩ := flow.selected recorded connected sentBodies
  exact ⟨delegated, arrived, few, front, fun drained => whole ⟨drained.isConnected, drained.outputQueue,
    drained.isDisconnectRequested, drained.hasDropped, drained.read⟩⟩

/-- What the session has asked for, after every run of the connection. -/
theorem schedules_of_run {callbacks : Side → MarshallerCallback κ (List ProxyEffect × χ)}
    {others : MarshallerCallback κ χ} (service : DatabaseProxyService) {config : ServerSideSessionConfig}
    (bytes : config.streamFactory.useBitPacking = false)
    (session : callbacks .far = DatabaseProxyServerSideSession.handles service config others)
    {first last : Connection κ (List ProxyEffect × χ)} {labels : List (Side × Endpoint.Label)}
    (fresh : scheduledBy first.far.context.1 = []) (unread : first.far.arrived = [])
    (run : Run (Where (Connection.Step callbacks) (Connection.Orderly coders)) first labels last) :
    Schedules coders.blockSize last.far.context last.far.arrived := by
  apply run.invariant fun _ connection =>
    Schedules coders.blockSize connection.far.context connection.far.arrived
  · intro requests arrived _
    rw [ArrivedFrom, unread] at arrived
    have none : requests = [] := List.map_eq_nil_iff.mp arrived.symm
    rw [none, fresh]
    exact .nil
  · rintro history connection ⟨side, label⟩ next schedules step
    cases side with
    | near =>
        obtain ⟨_, _, same⟩ := step.1.of_near
        rw [same]
        exact schedules
    | far =>
        obtain ⟨_, moves, _⟩ := step.1.of_far
        rw [session] at moves
        exact moves.keeps_arrived (handles_schedules service bytes coders.blockSize others) schedules

end Execution

section Concrete

open SendLedger

def clientStream : OByteStream MemoryBlockStreamBuffer :=
  { streamBuffer := ⟨MemoryBlock.create 0, ⟨Nat.le_refl 0, Nat.le_refl 0⟩⟩, shouldUseUtf8ForString := true }

def clientBlock : MemoryBlockStreamBuffer :=
  ⟨smallMarshaller.acquireSendBlock (.create 32), ⟨by decide, by decide⟩⟩

def calledBlock : MemoryBlock :=
  (DatabaseClientSideProxy.call (ProxyServer.storedProcedure 7) clientBlock clientStream).1.getD (.create 0)

def byteSessionConfig : ServerSideSessionConfig :=
  { streamFactory := { useBitPacking := false, shouldUseUtf8ForString := true }
    extensions := [.messaging], messages := [], hasMessaging := List.mem_singleton_self _ }

def proxyCallbacks : Side → MarshallerCallback CsPacketCoder (List ProxyEffect × Unit)
  | .near => fun _ state => .ok true state
  | .far =>
      DatabaseProxyServerSideSession.handles proxyService byteSessionConfig fun _ state => .ok true state

def proxyConnection : Connection CsPacketCoder (List ProxyEffect × Unit) :=
  { near := .opened 0 smallMarshaller 0 ([], ()), far := .opened 0 smallMarshaller 0 ([], ()) }

def delegating : List (Side × Endpoint.Label) :=
  [(.near, .session (.sendMessage ⟨0, calledBlock⟩ dbpmtSystemDelegate)), (.near, .session (.handler 0)),
    (.far, .read 0 ([12, 0, 6] ++ delegateBody) [] true)]

def serving : List ProxyServer.Label :=
  [.scheduler (.schedule (ProxyServer.storedProcedure 7)), .scheduler (.test 0), .scheduler (.fetch 0 0),
    .acquire 0, .execute 0 ProxyServer.anyDatabase]

end Concrete

end Sne.Database
