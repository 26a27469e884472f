import Sne.Base.StreamBufferRefinement
import Sne.Session.Connection
import Sne.Srpc.SgpRpcNetwork

/-!
# Commands over a connection

Two sessions with networks of receivers. Each end forwards commands, also while a method
that was called runs, and sends messages of other types through the same output stream.
The methods that a network has called are those of the commands that the other end has
forwarded, in their order and with their arguments, and none of them twice.
-/

namespace Sne.Srpc

open Sne.Base Sne.Core Sne.Session Sne.Sgp Sne.Library.Runs

set_option autoImplicit false

/-- What an application asks its session for, with the block that is acquired. -/
inductive Call (τ : Type) where
  | forward (command : RpcCommand) (acquired : BlockPointer)
  | sendMessage (message : StreamM τ Unit) (messageType : MessageType) (acquired : BlockPointer)
  | disconnect
  | disconnectGracefully

structure RpcPeer (κ τ σ : Type) where
  endpoint : Endpoint κ (RpcNetwork σ)
  ostream : τ
  forwarded : List RpcCommand := []
  hasRefused : Bool := false

def postedBy : PostedHandler → TcpSessionImpl.Label
  | .sendMessage mblock messageType => .sendMessage mblock messageType
  | .disconnect => .disconnect
  | .disconnectGracefully => .disconnectGracefully

namespace RpcPeer

variable {κ τ σ : Type} [PacketCoder κ] [BlockOStream τ] [BlockIStream σ]

def acquireSendBlock (acquired : MemoryBlock) (peer : RpcPeer κ τ σ) : Option MemoryBlockStreamBuffer :=
  let marshaller := peer.endpoint.session.marshaller
  if roomy : PacketCoder.getHeaderSize marshaller.packetCoder ≤ acquired.capacity then
    some ⟨marshaller.acquireSendBlock acquired, (marshaller.acquire_send_block_valid roomy).1⟩
  else
    none

/-- `SgpRpcNetwork::send` and `MessagingExtension::sendMessage`. A message that cannot be serialized
closes the session. -/
def send (message : StreamM τ Unit) (messageType : MessageType) (acquired : BlockPointer)
    (peer : RpcPeer κ τ σ) : Option (PostedHandler × RpcPeer κ τ σ) :=
  (peer.acquireSendBlock acquired.mblock).map fun buffer =>
    match serialize message buffer peer.ostream with
    | (some mblock, ostream) => (.sendMessage { acquired with mblock } messageType, { peer with ostream })
    | (none, ostream) => (.disconnect, { peer with ostream })

def call (peer : RpcPeer κ τ σ) : Call τ → Option (PostedHandler × RpcPeer κ τ σ)
  | .forward command acquired =>
      { peer with forwarded := peer.forwarded ++ [command] }.send command.marshal csmtRpc acquired
  | .sendMessage message messageType acquired => peer.send message messageType acquired
  | .disconnect => some (.disconnect, peer)
  | .disconnectGracefully => some (.disconnectGracefully, peer)

def calls (peer : RpcPeer κ τ σ) : List (Call τ) → Option (List PostedHandler × RpcPeer κ τ σ)
  | [] => some ([], peer)
  | call :: rest =>
      (peer.call call).bind fun (handler, peer) =>
        (peer.calls rest).map fun (handlers, peer) => (handler :: handlers, peer)

/-- The application calls the session, or bytes are read and the methods that they call do so, or the
session goes on with what it was asked for. -/
inductive Label (τ : Type) where
  | call (call : Call τ)
  | read (index : Nat) (chunk : List UInt8) (calls : List (Call τ)) (isKarmaRemained : Bool)
  | session (label : Endpoint.Label)

def goesOn : Endpoint.Label → Bool
  | .session (.sendMessage _ _) => false
  | .read _ _ _ _ => false
  | _ => true

def happens (peer : RpcPeer κ τ σ) : Label τ → Option (Endpoint.Label × RpcPeer κ τ σ)
  | .call call => (peer.call call).map fun (handler, peer) => (.session (postedBy handler), peer)
  | .read index chunk calls isKarmaRemained =>
      (peer.calls calls).map fun (handlers, peer) => (.read index chunk handlers isKarmaRemained, peer)
  | .session label =>
      if goesOn label then
        some (label, { peer with hasRefused := peer.hasRefused || peer.endpoint.refusesNext label })
      else
        none

end RpcPeer

structure RpcConnection (κ τ σ : Type) where
  near : RpcPeer κ τ σ
  far : RpcPeer κ τ σ

namespace RpcConnection

variable {κ τ σ : Type} [PlainHeaderCoder κ] [BlockOStream τ] [BlockIStream σ]

def sessions (connection : RpcConnection κ τ σ) : Connection κ (RpcNetwork σ) :=
  { near := connection.near.endpoint, far := connection.far.endpoint }

def advance (callbacks : Side → MarshallerCallback κ (RpcNetwork σ)) (connection : RpcConnection κ τ σ) :
    Side × RpcPeer.Label τ → Option (RpcConnection κ τ σ)
  | (.near, label) =>
      (connection.near.happens label).bind fun (inner, near) =>
        (connection.sessions.advance callbacks (.near, inner)).map fun sessions =>
          { connection with near := { near with endpoint := sessions.near } }
  | (.far, label) =>
      (connection.far.happens label).bind fun (inner, far) =>
        (connection.sessions.advance callbacks (.far, inner)).map fun sessions =>
          { connection with far := { far with endpoint := sessions.far } }

def Step (callbacks : Side → MarshallerCallback κ (RpcNetwork σ)) (connection : RpcConnection κ τ σ)
    (label : Side × RpcPeer.Label τ) (next : RpcConnection κ τ σ) : Prop :=
  connection.advance callbacks label = some next

end RpcConnection

section Forwarding

variable {κ τ σ : Type} [PacketCoder κ] [BlockOStream τ] [BlockIStream σ] {less : RpcType.Less}

/-- The commands can be carried and are known at the other end, and other messages leave the stream as
they found it. -/
def Call.Carried (carries : CarriesCommands less τ σ) (receivers : List RpcReceiver) : Call τ → Prop
  | .forward command _ => carries.Known receivers command
  | .sendMessage message messageType _ => messageType ≠ csmtRpc ∧
      ∀ acquired ostream, carries.Settled ostream → carries.Settled (serialize message acquired ostream).2
  | .disconnect => True
  | .disconnectGracefully => True

def RpcPeer.Label.Carried (carries : CarriesCommands less τ σ) (receivers : List RpcReceiver) :
    RpcPeer.Label τ → Prop
  | .call made => made.Carried carries receivers
  | .read _ _ made _ => ∀ call ∈ made, call.Carried carries receivers
  | .session _ => True

namespace RpcPeer

def commandOf : Call τ → List RpcCommand
  | .forward command _ => [command]
  | _ => []

structure Calls (carries : CarriesCommands less τ σ) (headerSize : Nat) (commands : List RpcCommand)
    (handlers : List PostedHandler) (peer next : RpcPeer κ τ σ) : Prop where
  endpoint : next.endpoint = peer.endpoint
  hasRefused : next.hasRefused = peer.hasRefused
  forwarded : next.forwarded = peer.forwarded ++ commands
  settled : carries.Settled next.ostream
  bodies : rpcBodies (postedMessages headerSize handlers) = commands.map carries.encode

variable {carries : CarriesCommands less τ σ} {receivers : List RpcReceiver}

omit [BlockOStream τ] [BlockIStream σ] in
theorem acquired_contents {acquired : MemoryBlock} {peer : RpcPeer κ τ σ}
    {buffer : MemoryBlockStreamBuffer} (found : peer.acquireSendBlock acquired = some buffer) :
    buffer.block.contents.length = PacketCoder.getHeaderSize peer.endpoint.coder := by
  unfold acquireSendBlock at found
  dsimp only at found
  split at found
  · rename_i roomy
    cases found
    exact (SgpMarshaller.acquire_send_block_valid _ roomy).2
  · cases found

theorem call_calls {headerSize : Nat} {call : Call τ} {handler : PostedHandler}
    {peer next : RpcPeer κ τ σ}
    (sameHeaderSize : PacketCoder.getHeaderSize peer.endpoint.coder = headerSize)
    (settled : carries.Settled peer.ostream) (carried : call.Carried carries receivers)
    (made : peer.call call = some (handler, next)) :
    Calls carries headerSize (commandOf call) [handler] peer next := by
  cases call with
  | forward command acquired =>
      obtain ⟨buffer, found, posts⟩ := Option.map_eq_some_iff.mp made
      obtain ⟨mblock, ostream, serialized, contents, settledNext⟩ :=
        carries.serializes command carried.carried buffer peer.ostream settled
      rw [serialized] at posts
      cases posts
      refine ⟨rfl, rfl, rfl, settledNext, ?_⟩
      have body : mblock.contents.drop headerSize = carries.encode command := by
        rw [contents, List.drop_left' ((acquired_contents found).trans sameHeaderSize)]
      simp [postedMessages, PostedHandler.message, rpcBodies, BlockPointer.bytes, body, commandOf]
  | sendMessage message messageType acquired =>
      obtain ⟨buffer, found, posts⟩ := Option.map_eq_some_iff.mp made
      have settledNext := carried.2 buffer peer.ostream settled
      split at posts
      · rename_i mblock ostream serialized
        cases posts
        rw [serialized] at settledNext
        refine ⟨rfl, rfl, (List.append_nil _).symm, settledNext, ?_⟩
        simp [postedMessages, PostedHandler.message, rpcBodies, carried.1, commandOf]
      · rename_i ostream serialized
        cases posts
        rw [serialized] at settledNext
        exact ⟨rfl, rfl, (List.append_nil _).symm, settledNext, rfl⟩
  | disconnect =>
      cases made
      exact ⟨rfl, rfl, (List.append_nil _).symm, settled, rfl⟩
  | disconnectGracefully =>
      cases made
      exact ⟨rfl, rfl, (List.append_nil _).symm, settled, rfl⟩

theorem calls_calls {headerSize : Nat} {made : List (Call τ)} {handlers : List PostedHandler}
    {peer next : RpcPeer κ τ σ}
    (sameHeaderSize : PacketCoder.getHeaderSize peer.endpoint.coder = headerSize)
    (settled : carries.Settled peer.ostream) (carried : ∀ call ∈ made, call.Carried carries receivers)
    (posts : peer.calls made = some (handlers, next)) :
    Calls carries headerSize (made.flatMap commandOf) handlers peer next := by
  induction made generalizing peer handlers with
  | nil =>
      cases posts
      exact ⟨rfl, rfl, (List.append_nil _).symm, settled, rfl⟩
  | cons call rest induction =>
      obtain ⟨⟨handler, middle⟩, first, later⟩ := Option.bind_eq_some_iff.mp posts
      obtain ⟨⟨others, last⟩, posted, same⟩ := Option.map_eq_some_iff.mp later
      cases same
      have one := call_calls sameHeaderSize settled (carried call List.mem_cons_self) first
      have more := induction (by rw [one.endpoint]; exact sameHeaderSize) one.settled
        (fun other member => carried other (List.mem_cons_of_mem _ member)) posted
      refine ⟨more.endpoint.trans one.endpoint, more.hasRefused.trans one.hasRefused, ?_, more.settled, ?_⟩
      · rw [more.forwarded, one.forwarded, List.append_assoc, List.flatMap_cons]
      · rw [show handler :: others = [handler] ++ others from rfl, posted_messages_append,
          rpc_bodies_append, one.bodies, more.bodies, List.flatMap_cons, List.map_append]

/-- The commands among what an end has accepted and what is still posted: those that were forwarded,
unless a message was refused. -/
structure Forwards (carries : CarriesCommands less τ σ) (headerSize : Nat) (receivers : List RpcReceiver)
    (peer : RpcPeer κ τ σ) : Prop where
  settled : carries.Settled peer.ostream
  known : ∀ command ∈ peer.forwarded, carries.Known receivers command
  kept : ∃ kept, kept.Sublist peer.forwarded ∧
    rpcBodies (peer.endpoint.outgoing headerSize) = kept.map carries.encode ∧
    (peer.hasRefused = false → kept = peer.forwarded)

theorem commands_known {made : List (Call τ)} (carried : ∀ call ∈ made, call.Carried carries receivers) :
    ∀ command ∈ made.flatMap commandOf, carries.Known receivers command := by
  intro command member
  obtain ⟨call, isMade, isOf⟩ := List.mem_flatMap.mp member
  have known := carried call isMade
  cases call with
  | forward other acquired =>
      rw [List.mem_singleton.mp isOf]
      exact known
  | sendMessage => exact absurd isOf List.not_mem_nil
  | disconnect => exact absurd isOf List.not_mem_nil
  | disconnectGracefully => exact absurd isOf List.not_mem_nil

theorem happens_calls {headerSize : Nat} {label : Label τ} {inner : Endpoint.Label}
    {peer next : RpcPeer κ τ σ}
    (sameHeaderSize : PacketCoder.getHeaderSize peer.endpoint.coder = headerSize)
    (settled : carries.Settled peer.ostream) (carried : label.Carried carries receivers)
    (happens : peer.happens label = some (inner, next)) :
    next.endpoint = peer.endpoint ∧ carries.Settled next.ostream ∧
      ∃ commands, next.forwarded = peer.forwarded ++ commands ∧
        (∀ command ∈ commands, carries.Known receivers command) ∧
        rpcBodies (postedMessages headerSize inner.asks) = commands.map carries.encode ∧
        (next.hasRefused = false → peer.hasRefused = false ∧ peer.endpoint.refusesNext inner = false) := by
  cases label with
  | call call =>
      obtain ⟨⟨handler, after⟩, made, same⟩ := Option.map_eq_some_iff.mp happens
      cases same
      have one := call_calls sameHeaderSize settled carried made
      refine ⟨one.endpoint, one.settled, commandOf call, one.forwarded, ?_, ?_, ?_⟩
      · have known : ∀ command ∈ [call].flatMap commandOf, carries.Known receivers command :=
          commands_known fun other member => by rw [List.mem_singleton.mp member]; exact carried
        rw [List.flatMap_singleton] at known
        exact known
      · rw [← one.bodies]
        cases handler <;> rfl
      · intro unrefused
        refine ⟨one.hasRefused.symm.trans unrefused, ?_⟩
        cases handler <;> rfl
  | read index chunk calls isKarmaRemained =>
      obtain ⟨⟨handlers, after⟩, made, same⟩ := Option.map_eq_some_iff.mp happens
      cases same
      have all := calls_calls sameHeaderSize settled carried made
      exact ⟨all.endpoint, all.settled, calls.flatMap commandOf, all.forwarded, commands_known carried,
        all.bodies, fun unrefused => ⟨all.hasRefused.symm.trans unrefused, rfl⟩⟩
  | session label =>
      simp only [RpcPeer.happens] at happens
      split at happens
      · rename_i isGoingOn
        cases happens
        refine ⟨rfl, settled, [], (List.append_nil _).symm, fun _ none => absurd none List.not_mem_nil, ?_,
          fun unrefused => Bool.or_eq_false_iff.mp unrefused⟩
        cases inner with
        | session inner =>
            cases inner with
            | sendMessage => cases isGoingOn
            | _ => rfl
        | read => cases isGoingOn
        | _ => rfl
      · cases happens

theorem Forwards.step {callback : MarshallerCallback κ (RpcNetwork σ)} {headerSize : Nat}
    {peer middle : RpcPeer κ τ σ} {label : Label τ} {inner : Endpoint.Label}
    {endpoint : Endpoint κ (RpcNetwork σ)}
    (forwards : peer.Forwards carries headerSize receivers)
    (sameHeaderSize : PacketCoder.getHeaderSize peer.endpoint.coder = headerSize)
    (carried : label.Carried carries receivers) (happens : peer.happens label = some (inner, middle))
    (step : Endpoint.Step callback peer.endpoint inner endpoint) :
    Forwards carries headerSize receivers { middle with endpoint } := by
  obtain ⟨_, settled, commands, forwarded, known, bodies, unrefusedBefore⟩ :=
    happens_calls sameHeaderSize forwards.settled carried happens
  obtain ⟨kept, few, isKept, whole⟩ := forwards.kept
  obtain ⟨fewer, same⟩ := step.outgoing headerSize sameHeaderSize
  refine ⟨settled, ?_, ?_⟩
  · intro command member
    rw [forwarded] at member
    rcases List.mem_append.mp member with earlier | later
    · exact forwards.known command earlier
    · exact known command later
  · have together : rpcBodies (peer.endpoint.outgoing headerSize ++ postedMessages headerSize inner.asks) =
        (kept ++ commands).map carries.encode := by
      rw [rpc_bodies_append, isKept, bodies, List.map_append]
    have part : (kept ++ commands).Sublist middle.forwarded := by
      rw [forwarded]
      exact few.append (List.Sublist.refl _)
    by_cases unrefused : middle.hasRefused = false
    · obtain ⟨before, accepts⟩ := unrefusedBefore unrefused
      refine ⟨kept ++ commands, part, ?_, fun _ => ?_⟩
      · rw [← together, same accepts]
      · rw [whole before, forwarded]
    · have fewBodies := fewer.filterMap fun message =>
        if message.1 = csmtRpc then some message.2 else none
      change (rpcBodies _).Sublist (rpcBodies _) at fewBodies
      rw [together] at fewBodies
      obtain ⟨left, isLeft, equal⟩ := List.sublist_map_iff.mp fewBodies
      exact ⟨left, isLeft.trans part, equal, fun none => absurd none unrefused⟩

end RpcPeer

end Forwarding

namespace RpcPeer

variable {κ τ σ : Type} [PlainHeaderCoder κ] [BlockOStream τ] [BlockIStream σ] {less : RpcType.Less}

structure Starts (coders : DuplexCoders κ) (carries : CarriesCommands less τ σ) (peer : RpcPeer κ τ σ) :
    Prop where
  endpoint : peer.endpoint.Starts coders
  consistent : peer.endpoint.context.Consistent
  settled : carries.Settled peer.ostream
  posted : peer.endpoint.session.posted = []
  forwarded : peer.forwarded = []

/-- What was forwarded has been accepted, written and read, and no message was refused or dropped. -/
structure Complete (sender receiver : RpcPeer κ τ σ) : Prop where
  isConnected : sender.endpoint.isConnected = true
  posted : sender.endpoint.session.posted = []
  outputQueue : sender.endpoint.session.outputQueue = []
  hasRefused : sender.hasRefused = false
  isDisconnectRequested : receiver.endpoint.connection.isDisconnectRequested = false
  hasDropped : receiver.endpoint.hasDropped = false
  read : receiver.endpoint.read = sender.endpoint.written

/-- The methods that the receiver has called since the connection was opened. -/
def Invokes (first : RpcNetwork σ) (sender receiver : RpcPeer κ τ σ) : Prop :=
  ∃ called invoked, called.Sublist sender.forwarded ∧
    (sender.hasRefused = false → receiver.endpoint.hasDropped = false → called <+: sender.forwarded) ∧
    (Complete sender receiver → called = sender.forwarded) ∧
    receiver.endpoint.context.calls = first.calls ++ invoked ∧
    List.Forall₂ (RpcNetwork.Delivered first.receivers) (deliveries called) invoked

variable {coders : DuplexCoders κ} {carries : CarriesCommands less τ σ}

theorem Starts.forwards {peer : RpcPeer κ τ σ} (starts : peer.Starts coders carries)
    (receivers : List RpcReceiver) : peer.Forwards carries coders.headerSize receivers := by
  refine ⟨starts.settled, ?_, [], List.nil_sublist _, ?_, fun _ => starts.forwarded.symm⟩
  · rw [starts.forwarded]
    exact fun _ none => absurd none List.not_mem_nil
  · rw [Endpoint.outgoing, starts.endpoint.sent, starts.posted]
    rfl

omit [BlockOStream τ] [BlockIStream σ] in
theorem rpc_bodies_opened (messages : List (MessageType × List UInt8)) :
    rpcBodies (messages.map coders.opened) = (rpcBodies messages).map (padded coders.blockSize) := by
  rw [rpcBodies, List.filterMap_map, rpcBodies, List.map_filterMap]
  congr 1
  funext message
  by_cases rpc : message.1 = csmtRpc
  · rw [if_pos rpc]
    exact if_pos rpc
  · rw [if_neg rpc]
    exact if_neg rpc

/-- What the receiver has been shown are the first commands that were accepted. -/
theorem invokes_of_flow {first : RpcNetwork σ} {sender receiver : RpcPeer κ τ σ}
    (flow : Endpoint.Flow coders sender.endpoint receiver.endpoint)
    (recorded : receiver.endpoint.Recorded)
    (forwards : sender.Forwards carries coders.headerSize first.receivers)
    (served : Served carries coders.blockSize first receiver.endpoint.context receiver.endpoint.arrived)
    (connected : receiver.endpoint.isConnected = true) : Invokes first sender receiver := by
  obtain ⟨kept, few, isKept, whole⟩ := forwards.kept
  obtain ⟨accepted, posted, rfl, isAccepted, isPosted⟩ :=
    List.map_eq_append_iff.mp ((rpc_bodies_append _ _).symm.trans isKept).symm
  have sentBodies : rpcBodies (sender.endpoint.sent.map coders.opened) =
      accepted.map fun command => padded coders.blockSize (carries.encode command) := by
    rw [rpc_bodies_opened, ← isAccepted, List.map_map]
    rfl
  obtain ⟨called, arrived, isPart, isFront, isWhole⟩ := flow.selected recorded connected sentBodies
  have fewer : called.Sublist (accepted ++ posted) := isPart.trans (List.sublist_append_left _ _)
  obtain ⟨_, _, invoked, calls, each⟩ := served called arrived fun command member =>
    forwards.known command (few.subset (fewer.subset member))
  refine ⟨called, invoked, fewer.trans few, ?_, ?_, calls, each⟩
  · intro unrefused undropped
    rw [← whole unrefused]
    exact (isFront undropped).trans (List.prefix_append _ _)
  · intro complete
    have none : posted = [] := by
      rw [complete.posted] at isPosted
      exact List.map_eq_nil_iff.mp isPosted
    rw [← whole complete.hasRefused, none, List.append_nil]
    exact isWhole ⟨complete.isConnected, complete.outputQueue, complete.isDisconnectRequested,
      complete.hasDropped, complete.read⟩

end RpcPeer

namespace RpcConnection

variable {κ τ σ : Type} [PlainHeaderCoder κ] [BlockOStream τ] [BlockIStream σ] {less : RpcType.Less}
variable {coders : DuplexCoders κ} {carries : CarriesCommands less τ σ}

def Orderly (coders : DuplexCoders κ) (connection : RpcConnection κ τ σ) : Side × RpcPeer.Label τ → Prop
  | (.near, label) =>
      match connection.near.happens label with
      | none => True
      | some (inner, _) => connection.near.endpoint.Orderly coders inner
  | (.far, label) =>
      match connection.far.happens label with
      | none => True
      | some (inner, _) => connection.far.endpoint.Orderly coders inner

/-- The other end has the methods that a side's commands are for. -/
def Carried (carries : CarriesCommands less τ σ) (first : RpcConnection κ τ σ) :
    Side × RpcPeer.Label τ → Prop
  | (.near, label) => label.Carried carries first.far.endpoint.context.receivers
  | (.far, label) => label.Carried carries first.near.endpoint.context.receivers

omit [BlockIStream σ] in
theorem Step.of_near {callbacks : Side → MarshallerCallback κ (RpcNetwork σ)}
    {connection next : RpcConnection κ τ σ} {label : RpcPeer.Label τ}
    (step : Step callbacks connection (.near, label) next) :
    ∃ inner middle, connection.near.happens label = some (inner, middle) ∧
      Connection.Step callbacks connection.sessions (.near, inner) next.sessions ∧
      next.near = { middle with endpoint := next.near.endpoint } ∧ next.far = connection.far := by
  obtain ⟨⟨inner, middle⟩, happens, later⟩ := Option.bind_eq_some_iff.mp step
  obtain ⟨sessions, moves, rfl⟩ := Option.map_eq_some_iff.mp later
  have same : sessions.far = connection.far.endpoint := (Connection.Step.of_near moves).2.2
  refine ⟨inner, middle, happens, ?_, rfl, rfl⟩
  rw [Connection.Step, moves, RpcConnection.sessions, ← same]

omit [BlockIStream σ] in
theorem Step.of_far {callbacks : Side → MarshallerCallback κ (RpcNetwork σ)}
    {connection next : RpcConnection κ τ σ} {label : RpcPeer.Label τ}
    (step : Step callbacks connection (.far, label) next) :
    ∃ inner middle, connection.far.happens label = some (inner, middle) ∧
      Connection.Step callbacks connection.sessions (.far, inner) next.sessions ∧
      next.far = { middle with endpoint := next.far.endpoint } ∧ next.near = connection.near := by
  obtain ⟨⟨inner, middle⟩, happens, later⟩ := Option.bind_eq_some_iff.mp step
  obtain ⟨sessions, moves, rfl⟩ := Option.map_eq_some_iff.mp later
  have same : sessions.near = connection.near.endpoint := (Connection.Step.of_far moves).2.2
  refine ⟨inner, middle, happens, ?_, rfl, rfl⟩
  rw [Connection.Step, moves, RpcConnection.sessions, ← same]

omit [BlockIStream σ] in
theorem Step.sessions {callbacks : Side → MarshallerCallback κ (RpcNetwork σ)}
    {connection next : RpcConnection κ τ σ} {label : Side × RpcPeer.Label τ}
    (step : Where (Step callbacks) (Orderly coders) connection label next) :
    ∃ inner, Where (Connection.Step callbacks) (Connection.Orderly coders) connection.sessions inner
      next.sessions := by
  obtain ⟨side, label⟩ := label
  obtain ⟨step, orderly⟩ := step
  cases side with
  | near =>
      obtain ⟨inner, middle, happens, moves, _⟩ := Step.of_near step
      rw [Orderly, happens] at orderly
      exact ⟨_, moves, orderly⟩
  | far =>
      obtain ⟨inner, middle, happens, moves, _⟩ := Step.of_far step
      rw [Orderly, happens] at orderly
      exact ⟨_, moves, orderly⟩

structure Serving (coders : DuplexCoders κ) (carries : CarriesCommands less τ σ)
    (first connection : RpcConnection κ τ σ) : Prop where
  nearForwards : connection.near.Forwards carries coders.headerSize first.far.endpoint.context.receivers
  farForwards : connection.far.Forwards carries coders.headerSize first.near.endpoint.context.receivers
  nearServed : Served carries coders.blockSize first.near.endpoint.context
    connection.near.endpoint.context connection.near.endpoint.arrived
  farServed : Served carries coders.blockSize first.far.endpoint.context
    connection.far.endpoint.context connection.far.endpoint.arrived

theorem Serving.step {others : Side → MarshallerCallback κ σ}
    {first connection next : RpcConnection κ τ σ}
    {label : Side × RpcPeer.Label τ} (serving : Serving coders carries first connection)
    (step : Step (fun side => SgpRpcNetwork.sessionHandles less (others side)) connection label next)
    (carried : Carried carries first label) : Serving coders carries first next := by
  obtain ⟨side, label⟩ := label
  cases side with
  | near =>
      obtain ⟨inner, middle, happens, moves, same, kept⟩ := Step.of_near step
      have taken := (Connection.Step.of_near moves).2.1
      constructor
      · rw [same]
        exact serving.nearForwards.step (coders.same_headerSize _) carried happens taken
      · rw [kept]
        exact serving.farForwards
      · exact taken.keeps_arrived (session_handles_serves carries _ _ (others .near)) serving.nearServed
      · rw [kept]
        exact serving.farServed
  | far =>
      obtain ⟨inner, middle, happens, moves, same, kept⟩ := Step.of_far step
      have taken := (Connection.Step.of_far moves).2.1
      constructor
      · rw [kept]
        exact serving.nearForwards
      · rw [same]
        exact serving.farForwards.step (coders.same_headerSize _) carried happens taken
      · rw [kept]
        exact serving.nearServed
      · exact taken.keeps_arrived (session_handles_serves carries _ _ (others .far)) serving.farServed

/-- Whatever the two ends do, each network calls methods for commands that the other end has forwarded,
in their order, with their arguments and once each. -/
theorem commands_invoked_over_connection {others : Side → MarshallerCallback κ σ}
    (leaves : ∀ side, LeavesCoder (others side)) {first last : RpcConnection κ τ σ}
    {labels : List (Side × RpcPeer.Label τ)}
    (near : first.near.Starts coders carries) (far : first.far.Starts coders carries)
    (toFar : coders.sending first.near.endpoint.coder = coders.receiving first.far.endpoint.coder)
    (toNear : coders.sending first.far.endpoint.coder = coders.receiving first.near.endpoint.coder)
    (run : Run (Where (Step fun side => SgpRpcNetwork.sessionHandles less (others side)) (Orderly coders))
      first labels last)
    (carried : ∀ label ∈ labels, Carried carries first label) :
    (last.far.endpoint.isConnected = true →
      RpcPeer.Invokes first.far.endpoint.context last.near last.far) ∧
    (last.near.endpoint.isConnected = true →
      RpcPeer.Invokes first.near.endpoint.context last.far last.near) := by
  obtain ⟨actions, corresponding⟩ := run.corresponds sessions (fun _ _ _ => Step.sessions)
  have flows := Connection.flows_of_run
    (fun side => SgpRpcNetwork.session_handles_leaves less (leaves side)) near.endpoint far.endpoint
    toFar toNear corresponding
  have serving : (∀ label ∈ labels, Carried carries first label) → Serving coders carries first last := by
    apply run.invariant fun history connection => (∀ label ∈ history, Carried carries first label) →
      Serving coders carries first connection
    · intro _
      refine ⟨near.forwards _, far.forwards _, ?_, ?_⟩
      · rw [near.endpoint.arrived]
        exact served_nothing carries _ near.consistent
      · rw [far.endpoint.arrived]
        exact served_nothing carries _ far.consistent
    · intro history connection label next before step all
      have serving := before fun other member => all other (List.mem_append_left _ member)
      exact serving.step step.1 (all label (List.mem_append_right _ (List.mem_singleton_self _)))
  have serves := serving carried
  constructor
  · exact RpcPeer.invokes_of_flow flows.toFar flows.farRecorded serves.nearForwards serves.farServed
  · exact RpcPeer.invokes_of_flow flows.toNear flows.nearRecorded serves.farForwards serves.nearServed

section Concrete

open SendLedger

instance (connection : RpcConnection κ τ σ) (label : Side × RpcPeer.Label τ) :
    Decidable (connection.Orderly coders label) :=
  match label with
  | (.near, label) =>
      match happens : connection.near.happens label with
      | none => .isTrue (by simp only [Orderly, happens])
      | some (inner, _) => decidable_of_iff (connection.near.endpoint.Orderly coders inner) (by
          simp only [Orderly, happens])
  | (.far, label) =>
      match happens : connection.far.happens label with
      | none => .isTrue (by simp only [Orderly, happens])
      | some (inner, _) => decidable_of_iff (connection.far.endpoint.Orderly coders inner) (by
          simp only [Orderly, happens])

def moveTo : RpcCommand :=
  { rpcId := 7, types := [.number .uint8 8, .number .int16 16]
    arguments := ((21 : UInt8), (-200 : Int16), ()), few := by decide }

def moved : RpcCommand :=
  { rpcId := 9, types := [.number .uint8 8], arguments := ((21 : UInt8), ()), few := by decide }

def knowing (command : RpcCommand) :
    RpcPeer CsPacketCoder (OByteStream MemoryBlockStreamBuffer) (IByteStream ByteQueue) :=
  { endpoint := .opened 0 smallMarshaller 0
      { receivers := [{ defaultEventMap := [{ rpcId := command.rpcId, types := command.types,
                                              arguments := Arguments.initial command.types }]
                        eventMap := [] }]
        istream := { streamBuffer := ⟨[]⟩, shouldUseUtf8ForString := true }
        calls := [] }
    ostream := { streamBuffer := .create 0, shouldUseUtf8ForString := true } }

def answering : List (Side × RpcPeer.Label (OByteStream MemoryBlockStreamBuffer)) :=
  [(.near, .call (.forward moveTo ⟨0, MemoryBlock.create 16⟩)), (.near, .session (.session (.handler 0))),
    (.far, .read 0 [7, 0, 21, 7, 0, 0, 0, 21, 56, 255] [.forward moved ⟨1, MemoryBlock.create 16⟩] true),
    (.far, .session (.session (.handler 0))),
    (.near, .read 0 [5, 0, 21, 9] [] true), (.near, .read 0 [0, 0, 0, 21] [] true)]

def echoing : RpcConnection CsPacketCoder (OByteStream MemoryBlockStreamBuffer)
    (IByteStream ByteQueue) :=
  { near := knowing moved, far := knowing moveTo }

def handling : Side → MarshallerCallback CsPacketCoder (RpcNetwork (IByteStream ByteQueue)) :=
  fun _ => SgpRpcNetwork.sessionHandles RpcType.stringLess fun _ state => .ok true state

theorem knowing_starts (command : RpcCommand) :
    (knowing command).Starts plainDuplex (carriesBytes RpcType.stringLess) := by
  refine ⟨Endpoint.opened_starts 0 0 _ rfl, ?_, trivial, rfl, rfl⟩
  intro receiver member
  rw [List.mem_singleton.mp member]
  exact ⟨List.nodup_singleton _, .inl rfl⟩

theorem knowing_reaches (command : RpcCommand) :
    RpcNetwork.Reaches (RpcNetwork.classes (knowing command).endpoint.context.receivers) command.rpcId
      command.types 0 :=
  ⟨[], [(command.rpcId, command.types)], [], rfl, rfl, fun _ none => absurd none List.not_mem_nil,
    List.mem_singleton_self _⟩

theorem commands_invoked_over_connection_answered :
    ∃ last, Run (Where (Step handling) (Orderly plainDuplex)) echoing answering last ∧
      last.far.endpoint.context.calls.length = 1 ∧ last.near.endpoint.context.calls.length = 1 ∧
      RpcPeer.Invokes echoing.far.endpoint.context last.near last.far ∧
      RpcPeer.Invokes echoing.near.endpoint.context last.far last.near := by
  have executes : (execute (guarded (advance handling) (Orderly plainDuplex)) echoing answering).map
      (fun last => ((last.far.endpoint.isConnected, last.far.endpoint.context.calls.length),
        last.near.endpoint.isConnected, last.near.endpoint.context.calls.length)) =
        some ((true, 1), true, 1) := by
    decide +kernel
  rcases Run.of_guarded (Step handling) (Orderly plainDuplex) (fun _ _ _ taken => taken) executes with
    ⟨last, run, facts⟩
  simp only [Prod.mk.injEq] at facts
  have leaves : ∀ side : Side, LeavesCoder (κ := CsPacketCoder) (χ := IByteStream ByteQueue)
      fun _ state => .ok true state :=
    fun _ _ _ mblock context => ⟨mblock, context, .inl rfl⟩
  have validMove : moveTo.Valid RpcType.stringLess :=
    ⟨trivial, trivial, trivial, trivial, trivial⟩
  have validMoved : moved.Valid RpcType.stringLess := ⟨trivial, trivial, trivial⟩
  have carried : ∀ label ∈ answering, Carried (carriesBytes RpcType.stringLess) echoing label := by
    intro label member
    simp only [answering, List.mem_cons, List.not_mem_nil, or_false] at member
    rcases member with rfl | rfl | rfl | rfl | rfl | rfl
    · exact ⟨validMove, 0, knowing_reaches moveTo⟩
    · trivial
    · intro call isMade
      rw [List.mem_singleton.mp isMade]
      exact ⟨validMoved, 0, knowing_reaches moved⟩
    · trivial
    · exact fun _ none => absurd none List.not_mem_nil
    · exact fun _ none => absurd none List.not_mem_nil
  have invokes := commands_invoked_over_connection leaves (knowing_starts moved) (knowing_starts moveTo)
    rfl rfl run carried
  exact ⟨last, run, facts.1.2, facts.2.2, invokes.1 facts.1.1, invokes.2 facts.2.1⟩

end Concrete

end RpcConnection

end Sne.Srpc
