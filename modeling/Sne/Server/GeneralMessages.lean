import Sne.Library.Runs
import Sne.Server.SeedState

/-!
# General messages and the seed exchange

`onMessageArrived` asks the extensions before it looks at `isSeedExchanged_`, so that
a general message before the exchange is refused only after it has been handled.
-/

namespace Sne.Server

open Sne.Base Sne.Sgp Sne.Library.Runs

set_option autoImplicit false

/-- No general message was handed to an extension before the seeds were exchanged. -/
def GeneralMessagesWait (history : List SessionRecord) : Prop :=
  ∀ extension messageType body isSeedExchanged,
    .handed extension messageType body isSeedExchanged ∈ history →
      isSystemMessage messageType = true ∨ isSeedExchanged = true

theorem general_messages_wait_append (first second : List SessionRecord) :
    GeneralMessagesWait (first ++ second) ↔ GeneralMessagesWait first ∧ GeneralMessagesWait second := by
  constructor
  · intro whole
    constructor
    · intro extension messageType body flag member
      exact whole extension messageType body flag (List.mem_append_left _ member)
    · intro extension messageType body flag member
      exact whole extension messageType body flag (List.mem_append_right _ member)
  · rintro ⟨left, right⟩ extension messageType body flag member
    rcases List.mem_append.mp member with early | late
    · exact left extension messageType body flag early
    · exact right extension messageType body flag late

theorem effects_wait (effects : List ExchangeEffect) :
    GeneralMessagesWait (effects.map SessionRecord.exchange) := by
  intro extension messageType body flag member
  simp at member

namespace SeedState

variable {κ : Type} [PacketCoder κ]

theorem exchange_waits (now : TimePoint) (outcome : PacketSeedExchangerForServer.Outcome)
    (state : SeedState κ) :
    GeneralMessagesWait (state.exchange now outcome).history ↔ GeneralMessagesWait state.history := by
  rw [(state.exchange_exchanger now outcome).2, general_messages_wait_append]
  exact and_iff_left (effects_wait outcome.2)

theorem messaging_waits (config : ServerSideSessionConfig) (surroundings : Surroundings)
    (messageType : MessageType) (body : List UInt8) (state : SeedState κ) :
    GeneralMessagesWait (state.messaging config surroundings messageType body).history ↔
      GeneralMessagesWait state.history := by
  unfold messaging
  split
  · split
    · exact state.exchange_waits surroundings.now _
    · exact Iff.rfl
  · split
    · exact state.exchange_waits surroundings.now _
    · exact Iff.rfl

end SeedState

namespace ServerSideSession

variable {κ : Type} [PacketCoder κ]

/-- A message that arrives in this state is a system message, or the seeds are exchanged, or
it is dropped because a disconnect is reserved. -/
def GeneralMessageAllowed (session : ServerSideSession κ) : Label → Prop
  | .messageArrived _ messageType _ =>
      isSystemMessage messageType = true ∨ session.isSeedExchanged = true ∨
        session.impl.isDisconnectReserved = true
  | _ => True

omit [PacketCoder κ] in
theorem handings_wait {messageType : MessageType} {body : List UInt8} {flag : Bool}
    {records : List SessionRecord} (handings : Handings messageType body flag records)
    (some : records ≠ []) :
    GeneralMessagesWait records ↔ isSystemMessage messageType = true ∨ flag = true := by
  constructor
  · intro waits
    rcases List.exists_mem_of_ne_nil records some with ⟨entry, member⟩
    rcases handings entry member with ⟨extension, rfl⟩
    exact waits extension messageType body flag member
  · intro allowed extension otherType otherBody otherFlag member
    rcases handings _ member with ⟨_, same⟩
    cases same
    exact allowed

theorem message_arrived_waits (config : ServerSideSessionConfig) (surroundings : Surroundings)
    (messageType : MessageType) (body : List UInt8) (session : ServerSideSession κ) :
    GeneralMessagesWait (session.messageArrived config surroundings messageType body).history ↔
      GeneralMessagesWait session.history ∧
        session.GeneralMessageAllowed (.messageArrived surroundings messageType body) := by
  cases reserved : session.impl.isDisconnectReserved with
  | true =>
      rw [session.message_arrived_reserved config surroundings messageType body reserved]
      exact (and_iff_left (.inr (.inr reserved))).symm
  | false =>
      rcases session.message_arrived_seedState config surroundings messageType body reserved with
        ⟨before, after, state, handings, some, split, arrived⟩
      have waits : GeneralMessagesWait state.history ↔ GeneralMessagesWait session.history ∧
          GeneralMessagesWait (before ++ after) := by
        rw [split, SeedState.append, general_messages_wait_append, general_messages_wait_append before,
          ← and_assoc, ← general_messages_wait_append session.history]
        apply and_congr_left'
        split
        · exact SeedState.messaging_waits config surroundings messageType body _
        · exact Iff.rfl
      have same : GeneralMessagesWait
          (session.messageArrived config surroundings messageType body).seedState.history ↔
          GeneralMessagesWait state.history := by
        rcases arrived with quiet | next
        · rw [quiet]
        · rw [next]
          exact state.exchange_waits surroundings.now _
      apply (same.trans waits).trans
      apply and_congr_right'
      rw [handings_wait handings some, GeneralMessageAllowed, reserved]
      simp

theorem session_opened_waits (config : ServerSideSessionConfig) (surroundings : Surroundings)
    (session : ServerSideSession κ) :
    GeneralMessagesWait (session.sessionOpened config surroundings).history ↔
      GeneralMessagesWait session.history := by
  have opened := exchange_seedState (κ := κ)
    { record .connected { session with impl := session.impl.sessionOpened } with
      isSeedExchanged := false } config surroundings
    (session.packetSeedExchanger.exchangePublicKey session.packetCoder)
  have waits := SeedState.exchange_waits surroundings.now
    (session.packetSeedExchanger.exchangePublicKey session.packetCoder)
    { session.seedState.append [.connected] with isSeedExchanged := false }
  have connected : GeneralMessagesWait [.connected] := by
    intro extension messageType body flag member
    simp at member
  change GeneralMessagesWait (session.sessionOpened config surroundings).seedState.history ↔ _
  rw [← and_iff_left (a := GeneralMessagesWait session.history) connected,
    ← general_messages_wait_append]
  exact (iff_of_eq (congrArg (fun state => GeneralMessagesWait (SeedState.history state)) opened)).trans
    waits

/-- General messages have waited for the exchange of the seeds in exactly the runs in which
none arrived before it. -/
theorem general_messages_wait_iff (config : ServerSideSessionConfig)
    {first last : ServerSideSession κ} {labels : List Label} (fresh : first.history = [])
    (run : Run (Step config) first labels last) :
    GeneralMessagesWait last.history ↔
      Run (Where (Step config) GeneralMessageAllowed) first labels last := by
  apply run.safe_iff (fun _ => True) (fun session => GeneralMessagesWait session.history)
    GeneralMessageAllowed trivial
  · rw [fresh]
    intro extension messageType body flag member
    cases member
  · intro _ _ _ _ _
    trivial
  · intro session label next _ step
    cases step with
    | connected surroundings _ =>
        rw [session_opened_waits]
        exact (and_iff_left trivial).symm
    | messageArrived surroundings messageType body =>
        exact session.message_arrived_waits config surroundings messageType body
    | transport _ => exact (and_iff_left trivial).symm

theorem general_messages_wait_after_exchange :
    ∃ last, Run (Step sgpSessionConfig) teaSession
        [.connected rpcSurroundings, .messageArrived rpcSurroundings 2 [0, 0],
          .messageArrived rpcSurroundings 3 [], .messageArrived rpcSurroundings 21 [1, 0, 0, 0]] last ∧
      .handed .rpcing 21 [1, 0, 0, 0] true ∈ last.history ∧
      (GeneralMessagesWait last.history ↔
        Run (Where (Step sgpSessionConfig) GeneralMessageAllowed) teaSession
          [.connected rpcSurroundings, .messageArrived rpcSurroundings 2 [0, 0],
            .messageArrived rpcSurroundings 3 [], .messageArrived rpcSurroundings 21 [1, 0, 0, 0]]
          last) := by
  have opens : Run (Step sgpSessionConfig) teaSession [] _ := .start _
  have connects := opens.next (.connected rpcSurroundings rfl)
  have exchanges := (connects.next (.messageArrived _ rpcSurroundings 2 [0, 0])).next
    (.messageArrived _ rpcSurroundings 3 [])
  have arrives := exchanges.next (.messageArrived _ rpcSurroundings 21 [1, 0, 0, 0])
  exact ⟨_, arrives, by decide, general_messages_wait_iff sgpSessionConfig rfl arrives⟩

/-- A client that has just connected sends an RPC message, and its method is called. -/
theorem rpc_message_before_exchange_is_handed :
    ¬∀ labels last, Run (Step sgpSessionConfig) teaSession labels last →
      GeneralMessagesWait last.history := by
  intro waits
  have opens : Run (Step sgpSessionConfig) teaSession [] _ := .start _
  have connects := opens.next (.connected rpcSurroundings rfl)
  have arrives := connects.next (.messageArrived _ rpcSurroundings 21 [1, 0, 0, 0])
  have handed := waits _ _ arrives .rpcing 21 [1, 0, 0, 0] false (by decide)
  revert handed
  decide

end ServerSideSession

end Sne.Server
