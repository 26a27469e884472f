import Sne.Session.MessageFlow
import Sne.Srpc.RpcDelivery

/-!
# The RPC network of a session

`RpcingExtension.cpp` with `SessionImpl::serialize` and `SessionImpl::deserialize`. A
session has one output and one input stream, and puts each message's block behind them. A
command is written into a block of its own. What the other end gets of it is the block's
body, padded for the cipher, and there the network calls the command's method.
-/

namespace Sne.Srpc

open Sne.Base Sne.Core Sne.Session Sne.Sgp Sne.Library.Exec Sne.Library.Codec Sne.Library.Bits

set_option autoImplicit false

class BlockOStream (τ : Type) extends OStream τ where
  streamBuffer : τ → MemoryBlockStreamBuffer
  /-- `MemoryBlockStreamBuffer::reset` with a new block. -/
  resetBlock : MemoryBlockStreamBuffer → τ → τ

class BlockIStream (σ : Type) extends IStream σ where
  resetBlock : ByteQueue → σ → σ

instance : BlockOStream (OByteStream MemoryBlockStreamBuffer) where
  streamBuffer stream := stream.streamBuffer
  resetBlock mblock stream := { stream with streamBuffer := mblock }

instance : BlockOStream (OBitStream MemoryBlockStreamBuffer) where
  streamBuffer stream := stream.streamBuffer
  resetBlock mblock stream := { stream with streamBuffer := mblock }

instance : BlockIStream (IByteStream ByteQueue) where
  resetBlock queue stream := { stream with streamBuffer := queue }

instance : BlockIStream (IBitStream ByteQueue) where
  resetBlock queue stream := { stream with streamBuffer := queue }

/-- `SessionImpl::serialize`: the block, unless the stream has thrown. -/
def serialize {τ : Type} [BlockOStream τ] (streamable : StreamM τ Unit)
    (acquired : MemoryBlockStreamBuffer)
    (ostream : τ) : Option MemoryBlock × τ :=
  match (do streamable; OStream.align) (BlockOStream.resetBlock acquired (OStream.reset false ostream)) with
  | .ok _ ostream => (some (BlockOStream.streamBuffer ostream).block, ostream)
  | .error _ ostream => (none, ostream)

def deserialize {σ : Type} [BlockIStream σ] (mblock : MemoryBlock) (istream : σ) : σ :=
  BlockIStream.resetBlock ⟨mblock.contents⟩ (IStream.reset false istream)

namespace SgpRpcNetwork

variable {κ σ : Type} [BlockIStream σ]

def handleMessage (less : RpcType.Less) (mblock : MemoryBlock) : StreamM (RpcNetwork σ) Bool := do
  modify fun network => { network with istream := deserialize mblock network.istream }
  RpcNetwork.onReceive less 0
  pure true

/-- The extensions of a session. `RpcingExtension::handleMessage` takes the commands, and the
messages of other types are for the others, which read them from the same stream. -/
def sessionHandles (less : RpcType.Less) (others : MarshallerCallback κ σ) :
    MarshallerCallback κ (RpcNetwork σ) :=
  fun messageType state =>
    if messageType = csmtRpc then
      focus (fun state => state.2.2) (fun state network => (state.1, state.2.1, network))
        (handleMessage less state.2.1) state
    else
      focus (fun state => (state.1, state.2.1, state.2.2.istream))
        (fun state inner => (inner.1, inner.2.1, { state.2.2 with istream := inner.2.2 }))
        (others messageType) state

theorem session_handles_leaves (less : RpcType.Less) {others : MarshallerCallback κ σ}
    (leaves : LeavesCoder others) : LeavesCoder (sessionHandles less others) := by
  intro messageType coder mblock network
  unfold sessionHandles
  split
  · simp only [focus]
    split
    · rename_i accepted after handled
      cases accepted with
      | true => exact ⟨mblock, after, .inl rfl⟩
      | false => exact ⟨mblock, after, .inr (.inl rfl)⟩
    · rename_i e after failed
      exact ⟨mblock, after, .inr (.inr ⟨e, rfl⟩)⟩
  · simp only [focus]
    obtain ⟨after, istream, accepted | refused | ⟨e, failed⟩⟩ :=
      leaves messageType coder mblock network.istream
    · rw [accepted]
      exact ⟨after, { network with istream }, .inl rfl⟩
    · rw [refused]
      exact ⟨after, { network with istream }, .inr (.inl rfl)⟩
    · rw [failed]
      exact ⟨after, { network with istream }, .inr (.inr ⟨e, rfl⟩)⟩

end SgpRpcNetwork

structure CarriesCommands (less : RpcType.Less) (τ σ : Type) [BlockOStream τ] [BlockIStream σ] where
  /-- Between two messages. -/
  Settled : τ → Prop
  Carried : RpcCommand → Prop
  encode : RpcCommand → List UInt8
  serializes : ∀ command, Carried command → ∀ acquired ostream, Settled ostream →
    ∃ (mblock : MemoryBlock) (next : τ), serialize command.marshal acquired ostream = (some mblock, next) ∧
      mblock.contents = acquired.block.contents ++ encode command ∧ Settled next
  readable : ∀ command, Carried command → ∀ (mblock : MemoryBlock) (istream : σ) rest,
    mblock.contents = encode command ++ rest →
    command.Readable less (fun _ => True) (deserialize mblock istream)

theorem RpcCommand.Readable.weaken {σ : Type} [IStream σ] {less : RpcType.Less} {command : RpcCommand}
    {After : σ → Prop} {istream : σ} (readable : command.Readable less After istream) :
    command.Readable less (fun _ => True) istream := by
  obtain ⟨middle, readsId, readsArguments⟩ := readable
  refine ⟨middle, readsId, ?_⟩
  intro old
  obtain ⟨arguments, last, after, reads, same, aligns, _⟩ := readsArguments old
  exact ⟨arguments, last, after, reads, same, aligns, trivial⟩

theorem serialize_runs {τ : Type} [BlockOStream τ] (holds : τ → List UInt8 → Prop)
    {streamable : StreamM τ Unit} {bytes : List UInt8} (writes : Writes holds streamable bytes)
    (aligns : ∀ ostream items, holds ostream items → Runs OStream.align ostream () ostream)
    (acquired : MemoryBlockStreamBuffer) (ostream : τ) {header : List UInt8}
    (held : holds (BlockOStream.resetBlock acquired (OStream.reset false ostream)) header) :
    ∃ next, serialize streamable acquired ostream = (some (BlockOStream.streamBuffer next).block, next) ∧
      holds next (header ++ bytes) := by
  obtain ⟨next, runs, nextHeld⟩ := writes _ header held
  refine ⟨next, ?_, nextHeld⟩
  have whole : Runs (do streamable; OStream.align) _ () next := runs.bind (aligns next _ nextHeld)
  unfold Runs at whole
  rw [serialize, whole]

def carriesBytes (less : RpcType.Less) :
    CarriesCommands less (OByteStream MemoryBlockStreamBuffer) (IByteStream ByteQueue) where
  Settled _ := True
  Carried := RpcCommand.Valid less
  encode := RpcCommand.encode
  serializes command valid acquired ostream _ := by
    obtain ⟨next, serialized, held⟩ := serialize_runs OByteStream.Holds (command.writes less valid)
      (fun _ _ _ => runs_pure _ _) acquired ostream rfl
    exact ⟨_, next, serialized, held, trivial⟩
  readable command valid mblock istream rest contents :=
    (command.readable less valid (deserialize mblock istream) rest contents).weaken

theorem bits_packed (command : RpcCommand) : ∃ bytes, bytesBits bytes = command.bits :=
  exists_bytes_of_bits command.bits command.bits_whole

noncomputable def carriesBits (less : RpcType.Less) :
    CarriesCommands less (OBitStream MemoryBlockStreamBuffer) (IBitStream ByteQueue) where
  Settled ostream := ostream.holdingBitCount = 0
  Carried := RpcCommand.BitValid
  encode command := (bits_packed command).choose
  serializes command valid acquired ostream settled := by
    have aligns : ∀ (ostream : OBitStream MemoryBlockStreamBuffer) (items : List UInt8),
        ostream.HoldsBytes items → Runs OStream.align ostream () ostream := by
      intro ostream items held
      refine (runs_get _).bind (runs_guarded_skip ?_ _ _)
      rw [held.2]
      rfl
    obtain ⟨next, serialized, held⟩ := serialize_runs OBitStream.HoldsBytes
      (command.writes_bytes valid _ (bits_packed command).choose_spec) aligns acquired ostream ⟨rfl, settled⟩
    exact ⟨_, next, serialized, held.1, held.2⟩
  readable command valid mblock istream rest contents :=
    (command.readable_bytes less valid _ (bits_packed command).choose_spec _ rest
      ⟨contents, rfl⟩).weaken

section Serving

variable {κ τ σ : Type} [BlockOStream τ] [BlockIStream σ] {less : RpcType.Less}

def rpcBodies (messages : List (MessageType × List UInt8)) : List (List UInt8) :=
  messages.filterMap fun message => if message.1 = csmtRpc then some message.2 else none

theorem rpc_bodies_append (messages more : List (MessageType × List UInt8)) :
    rpcBodies (messages ++ more) = rpcBodies messages ++ rpcBodies more :=
  List.filterMap_append

structure CarriesCommands.Known (carries : CarriesCommands less τ σ) (receivers : List RpcReceiver)
    (command : RpcCommand) : Prop where
  carried : carries.Carried command
  reaches : ∃ index, RpcNetwork.Reaches (RpcNetwork.classes receivers) command.rpcId command.types index

/-- The hint of a session's commands is null. -/
def deliveries (commands : List RpcCommand) : List RpcNetwork.Delivery :=
  commands.map fun command => (command, 0)

/-- Every list of commands which the messages are the bodies of has been served: each command has had
its method called, in their order and once each. -/
def Served (carries : CarriesCommands less τ σ) (blockSize : Nat) (first network : RpcNetwork σ)
    (messages : List (MessageType × List UInt8)) : Prop :=
  ∀ commands, rpcBodies messages = commands.map (fun command => padded blockSize (carries.encode command)) →
    (∀ command ∈ commands, carries.Known first.receivers command) →
    network.Consistent ∧ RpcNetwork.classes network.receivers = RpcNetwork.classes first.receivers ∧
      ∃ invoked, network.calls = first.calls ++ invoked ∧
        List.Forall₂ (RpcNetwork.Delivered first.receivers) (deliveries commands) invoked

theorem served_nothing (carries : CarriesCommands less τ σ) (blockSize : Nat) {first : RpcNetwork σ}
    (consistent : first.Consistent) : Served carries blockSize first first [] := by
  intro commands bodies _
  have none : commands = [] := List.map_eq_nil_iff.mp bodies.symm
  subst none
  exact ⟨consistent, rfl, [], (List.append_nil _).symm, .nil⟩

theorem session_handles_serves (carries : CarriesCommands less τ σ) (blockSize : Nat)
    (first : RpcNetwork σ) (others : MarshallerCallback κ σ) :
    Endpoint.KeepsArrived (SgpRpcNetwork.sessionHandles less others)
    (Served carries blockSize first) := by
  intro messageType coder mblock network messages served
  unfold SgpRpcNetwork.sessionHandles
  by_cases rpc : messageType = csmtRpc
  · rw [if_pos rpc]
    subst rpc
    have shown : ∀ commands, rpcBodies (messages ++ [(csmtRpc, mblock.contents)]) =
        commands.map (fun command => padded blockSize (carries.encode command)) →
        ∃ earlier command, commands = earlier ++ [command] ∧
          rpcBodies messages = earlier.map (fun command => padded blockSize (carries.encode command)) ∧
          mblock.contents = padded blockSize (carries.encode command) := by
      intro commands bodies
      rw [rpc_bodies_append] at bodies
      obtain ⟨earlier, last, rfl, same, sameLast⟩ := List.map_eq_append_iff.mp bodies.symm
      obtain ⟨command, rfl, body⟩ := List.map_eq_singleton_iff.mp sameLast
      exact ⟨earlier, command, rfl, same.symm, body.symm⟩
    have handles : ∀ commands, rpcBodies (messages ++ [(csmtRpc, mblock.contents)]) =
        commands.map (fun command => padded blockSize (carries.encode command)) →
        (∀ command ∈ commands, carries.Known first.receivers command) →
        ∃ next, Runs (SgpRpcNetwork.handleMessage less mblock) network true next ∧
          next.Consistent ∧ RpcNetwork.classes next.receivers = RpcNetwork.classes first.receivers ∧
          ∃ invoked, next.calls = first.calls ++ invoked ∧
            List.Forall₂ (RpcNetwork.Delivered first.receivers) (deliveries commands) invoked := by
      intro commands bodies known
      obtain ⟨earlier, command, rfl, before, body⟩ := shown commands bodies
      obtain ⟨consistent, classes, invoked, calls, delivered⟩ :=
        served earlier before (fun other member => known other (List.mem_append_left _ member))
      have isKnown := known command (List.mem_append_right _ (List.mem_singleton_self _))
      obtain ⟨index, reaches⟩ := isKnown.reaches
      have readable := carries.readable command isKnown.carried mblock network.istream _ body
      rw [← classes] at reaches
      have deserialized : ({ network with istream := deserialize mblock network.istream } :
          RpcNetwork σ).Consistent := consistent
      obtain ⟨next, invocation, runs, nextConsistent, sameClasses, nextCalls, isInvoked, _⟩ :=
        RpcNetwork.on_receive_known deserialized reaches readable 0
      refine ⟨next, ?_, nextConsistent, sameClasses.trans classes, invoked ++ [invocation], ?_, ?_⟩
      · exact (runs_modify _ _).bind (runs.bind (runs_pure _ _))
      · rw [nextCalls, calls, List.append_assoc]
      · rw [deliveries, List.map_append]
        refine List.rel_append delivered (.cons ⟨index, ?_, isInvoked⟩ .nil)
        rw [← classes]
        exact reaches
    simp only [focus]
    split
    · rename_i reply
      split at reply
      · rename_i accepted next handled
        cases reply
        intro commands bodies known
        obtain ⟨after, runs, facts⟩ := handles commands bodies known
        rw [(runs.unique handled).2] at facts
        exact facts
      · cases reply
    · rename_i reply
      split at reply
      · cases reply
      · rename_i e next failed
        cases reply
        intro commands bodies known
        obtain ⟨after, runs, facts⟩ := handles commands bodies known
        unfold Runs at runs
        rw [failed] at runs
        cases runs
  · rw [if_neg rpc]
    have same : rpcBodies (messages ++ [(messageType, mblock.contents)]) = rpcBodies messages := by
      rw [rpc_bodies_append]
      simp [rpcBodies, rpc]
    have kept : ∀ istream, Served carries blockSize first { network with istream }
        (messages ++ [(messageType, mblock.contents)]) := by
      intro istream commands bodies known
      rw [same] at bodies
      exact served commands bodies known
    simp only [focus]
    split
    · rename_i reply
      split at reply
      · cases reply
        exact kept _
      · cases reply
    · rename_i reply
      split at reply
      · cases reply
      · cases reply
        exact kept _

end Serving

end Sne.Srpc
