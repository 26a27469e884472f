import Sne.Srpc.RpcCommandCodec

/-!
# Delivery of commands

From the marshalling of a list of commands to the calls of the methods, on the byte
streams and on the bit streams.
-/

namespace Sne.Srpc

open Sne.Core Sne.Library.Exec Sne.Library.Codec Sne.Library.Bits

set_option autoImplicit false

namespace RpcNetwork

/-- Each command has its own bytes. Commands that are marshalled one after another append
theirs, and `onReceive` calls the methods in the same order and takes the bytes of one
command each. `Sendable` says which commands the streams can carry. -/
def DeliversExactly {τ σ : Type} [OStream τ] [IStream σ] (less : RpcType.Less)
    (Sendable : RpcCommand → Prop) (written : τ → List UInt8 → Prop)
    (unread : σ → List UInt8 → Prop) : Prop :=
  ∃ encode : RpcCommand → List UInt8,
    (∀ commands : List RpcCommand, (∀ command ∈ commands, Sendable command) →
      Writes written (writeEach RpcCommand.marshal commands) (commands.flatMap encode)) ∧
    ∀ (now later : List Delivery) (rest : List UInt8) (network : RpcNetwork σ),
      network.Consistent →
      (∀ delivery ∈ now, Sendable delivery.1 ∧
        ∃ index, Reaches (classes network.receivers) delivery.1.rpcId delivery.1.types index) →
      unread network.istream ((now ++ later).flatMap (fun delivery => encode delivery.1) ++ rest) →
      ∃ after invoked, Runs (receiveEach less (now.map Prod.snd)) network () after ∧
        after.Consistent ∧ classes after.receivers = classes network.receivers ∧
        unread after.istream (later.flatMap (fun delivery => encode delivery.1) ++ rest) ∧
        after.calls = network.calls ++ invoked ∧
        List.Forall₂ (Delivered network.receivers) now invoked

theorem delivers_of_commands {τ σ : Type} [OStream τ] [IStream σ] {less : RpcType.Less}
    {Sendable : RpcCommand → Prop} {written : τ → List UInt8 → Prop}
    {unread : σ → List UInt8 → Prop} {encode : RpcCommand → List UInt8}
    (writes : ∀ command, Sendable command → Writes written command.marshal (encode command))
    (readable : ∀ command, Sendable command → ∀ istream rest, unread istream (encode command ++ rest) →
      command.Readable less (fun after => unread after rest) istream) :
    DeliversExactly less Sendable written unread := by
  refine ⟨encode, ?_, ?_⟩
  · intro commands sendable
    apply writes_each
    intro command member
    exact writes command (sendable command member)
  · intro now later rest network consistent sendable held
    rw [List.flatMap_append, List.append_assoc] at held
    apply receive_each_delivers _ consistent (fun delivery member => (sendable delivery member).2) held
    intro delivery member istream others unreadNow
    exact readable delivery.1 (sendable delivery member).1 istream others unreadNow

end RpcNetwork

section Bits

variable {β : Type} [FifoBuffer β]

namespace RpcCommand

theorem writes_bytes (command : RpcCommand) (valid : command.BitValid) (bytes : List UInt8)
    (same : bytesBits bytes = command.bits) :
    Writes OBitStream.HoldsBytes (command.marshal : StreamM (OBitStream β) Unit) bytes := by
  intro stream written held
  rw [OBitStream.holds_bytes_iff] at held
  rcases command.writes_bits valid stream _ (by rw [bytes_bits_length]; omega) held with
    ⟨after, runs, afterHeld⟩
  refine ⟨after, runs, ?_⟩
  rw [OBitStream.holds_bytes_iff, bytes_bits_append, same]
  exact afterHeld

theorem readable_bytes (less : RpcType.Less) (command : RpcCommand) (valid : command.BitValid)
    (bytes : List UInt8) (same : bytesBits bytes = command.bits) (istream : IBitStream β)
    (rest : List UInt8) (held : istream.RemainsBytes (bytes ++ rest)) :
    command.Readable less (fun after => after.RemainsBytes rest) istream := by
  rw [IBitStream.remains_bytes_iff, bytes_bits_append, same] at held
  have boundary : (bytesBits rest).length % 8 = 0 := by
    rw [bytes_bits_length]
    omega
  have readable := command.readable_bits less valid istream _ boundary held
  simpa only [IBitStream.remains_bytes_iff] using readable

end RpcCommand

end Bits

namespace RpcNetwork

/-- Without a `Param`, the method gets the very arguments of the command. -/
theorem invoked_plain {command : RpcCommand} (plain : ∀ type ∈ command.types, type.Plain) {index : Nat}
    {rpcHint : RpcHint} {invocation : Invocation} (invoked : command.Invoked index rpcHint invocation) :
    invocation = {
      receiver := index
      rpcId := command.rpcId
      types := command.types
      arguments := command.arguments
      rpcHint } := by
  obtain ⟨arguments, same, rfl⟩ := invoked
  rw [Arguments.eq_of_same plain same]

/-- Commands are delivered exactly on both kinds of stream, and an id that no receiver
knows is refused before any method is called, whatever the stream. -/
theorem commands_delivered_exactly {β γ : Type} [FifoBuffer β] [FifoBuffer γ] (less : RpcType.Less) :
    DeliversExactly less (RpcCommand.Valid less) (OByteStream.Holds (β := β))
      (IByteStream.Holds (β := γ)) ∧
    DeliversExactly less RpcCommand.BitValid (OBitStream.HoldsBytes (β := β))
      (IBitStream.RemainsBytes (β := γ)) ∧
    (∀ (σ : Type) [IStream σ] (network : RpcNetwork σ) (rpcId : RpcId) (middle : σ)
      (rpcHint : RpcHint), network.Consistent →
      Runs (IStream.readUInt32 32) network.istream rpcId middle →
      (∀ receiver ∈ network.receivers, ∀ types, ¬receiver.Knows rpcId types) →
      ∃ after, Throws (onReceive less rpcHint) network (unknownRpcMethod rpcId) after ∧
        after.calls = network.calls) ∧
    ∀ (command : RpcCommand) (index : Nat) (rpcHint : RpcHint) (invocation : Invocation),
      (∀ type ∈ command.types, type.Plain) → command.Invoked index rpcHint invocation →
      invocation = {
        receiver := index
        rpcId := command.rpcId
        types := command.types
        arguments := command.arguments
        rpcHint } := by
  refine ⟨?_, ?_, ?_, ?_⟩
  · exact delivers_of_commands (fun command => command.writes less)
      (fun command => command.readable less)
  · have packed : ∀ command : RpcCommand, ∃ bytes, bytesBits bytes = command.bits := fun command =>
      exists_bytes_of_bits command.bits command.bits_whole
    choose encode same using packed
    exact delivers_of_commands (fun command valid => command.writes_bytes valid _ (same command))
      (fun command valid => command.readable_bytes less valid _ (same command))
  · intro σ _ network rpcId middle rpcHint consistent readsId unknown
    exact on_receive_unknown consistent readsId unknown less rpcHint
  · exact fun command index rpcHint invocation plain invoked => invoked_plain plain invoked

theorem commands_delivered_exactly_two_receivers :
    let greet : RpcCommand := { rpcId := 1, types := [.number .uint8 5, .number .int16 9],
                                arguments := ((21 : UInt8), (-200 : Int16), ()), few := by decide }
    let count : RpcCommand := { rpcId := 2, types := [.number .uint64 64],
                                arguments := ((7 : UInt64), ()), few := by decide }
    let event (command : RpcCommand) : RpcEvent :=
      { rpcId := command.rpcId, types := command.types, arguments := Arguments.initial command.types }
    let receivers : List RpcReceiver := [{ defaultEventMap := [event greet], eventMap := [] },
      { defaultEventMap := [event count, event greet], eventMap := [] }]
    ∃ encode : RpcCommand → List UInt8,
      (∃ written, Runs (writeEach RpcCommand.marshal [count, greet])
        (OBitStream.create (ByteQueue.mk []) true) () written ∧
        written.streamBuffer.items = encode count ++ encode greet) ∧
      ∀ istream : IBitStream ByteQueue, istream.streamBuffer.items = encode count ++ encode greet →
        istream.bitReadCount = 0 →
        ∃ after invoked, Runs (receiveEach RpcType.stringLess [0, 0])
            { receivers, istream, calls := [] } () after ∧
          after.istream.streamBuffer.items = [] ∧ after.calls = invoked ∧
          List.Forall₂ (Delivered receivers) [(count, 0), (greet, 0)] invoked := by
  intro greet count event receivers
  have sendable : ∀ command ∈ [count, greet], command.BitValid := by
    intro command member
    rcases List.mem_cons.mp member with rfl | last
    · exact ⟨rfl, trivial⟩
    · rw [List.mem_singleton.mp last]
      exact ⟨(by decide : FieldType.Valid (.uint8 5) 21),
        (by decide : FieldType.Valid (.int16 9) (-200)), trivial⟩
  rcases (commands_delivered_exactly (β := ByteQueue) (γ := ByteQueue) RpcType.stringLess).2.1 with
    ⟨encode, writes, delivers⟩
  refine ⟨encode, ?_, ?_⟩
  · have empty : (OBitStream.create (ByteQueue.mk []) true).HoldsBytes [] := ⟨rfl, rfl⟩
    rcases writes [count, greet] sendable _ [] empty with ⟨written, runs, holds, _⟩
    exact ⟨written, runs, holds.trans (by simp)⟩
  · intro istream contents boundary
    have consistent : (RpcNetwork.mk receivers istream []).Consistent := by
      intro receiver member
      rcases List.mem_cons.mp member with rfl | last
      · exact ⟨List.nodup_singleton _, .inl rfl⟩
      · rw [List.mem_singleton.mp last]
        exact ⟨(by decide : [(2 : RpcId), 1].Nodup), .inl rfl⟩
    have known : ∀ delivery ∈ [(count, 0), (greet, 0)], delivery.1.BitValid ∧
        ∃ index, Reaches (classes receivers) delivery.1.rpcId delivery.1.types index := by
      intro delivery member
      refine ⟨sendable delivery.1 (List.mem_map_of_mem (f := Prod.fst) member), ?_⟩
      rcases List.mem_cons.mp member with rfl | last
      · refine ⟨1, [[(1, greet.types)]], [(2, count.types), (1, greet.types)], [], rfl, rfl, ?_, ?_⟩
        · intro other member types known
          rw [List.mem_singleton.mp member] at known
          cases List.mem_singleton.mp known
        · exact List.mem_cons_self
      · rw [List.mem_singleton.mp last]
        refine ⟨0, [], [(1, greet.types)], [[(2, count.types), (1, greet.types)]], rfl, rfl, ?_, ?_⟩
        · intro other member
          cases member
        · exact List.mem_cons_self
    rcases delivers [(count, 0), (greet, 0)] [] [] { receivers, istream, calls := [] } consistent known
        ⟨contents.trans (by simp), boundary⟩ with ⟨after, invoked, runs, _, _, unread, calls, delivered⟩
    exact ⟨after, invoked, runs, unread.1, calls, delivered⟩

end RpcNetwork

end Sne.Srpc
