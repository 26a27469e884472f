import Sne.Library.Runs
import Sne.Server.SeedState

/-!
# Key rotation under traffic

`exchangeNextSeed` replaces an expired key. `onMessageArrived` comes to it only with a
message that no extension has handled, and it then refuses the message, so that the
session disconnects. Traffic that the extensions do handle never renews the key.
-/

namespace Sne.Server

open Sne.Base Sne.Core Sne.Sgp Sne.Library.Runs

set_option autoImplicit false

namespace ServerSideSession

variable {κ : Type} [PacketCoder κ] (config : ServerSideSessionConfig)

/-- A general message that an extension handles arrives when the seeds have been exchanged,
the cipher key has expired and no exchange is in flight. -/
structure RotationDue (session : ServerSideSession κ) (surroundings : Surroundings)
    (messageType : MessageType) (body : List UInt8) : Prop where
  connected : session.impl.isConnected = true
  general : isSystemMessage messageType = false
  handled : session.impl.isDisconnectReserved = false ∧
    (session.handleMessage config surroundings messageType body config.extensions).1 = .ok true
  exchanged : session.isSeedExchanged = true
  ciphered : PacketCoder.hasPacketCipher session.packetCoder = true
  expired : PacketCoder.isCipherKeyExpired surroundings.now session.packetCoder = true
  idle : session.packetSeedExchanger.exchangingDecryptSeed = []

/-- An `ExchangeSeed` message is sent and the time limit of the key extended. -/
def StartsExchange (session next : ServerSideSession κ) : Prop :=
  ∃ records message, next.history = session.history ++ records ∧
    .exchange (.sendMessage (.exchangeSeed message)) ∈ records ∧
    .exchange .extendCipherKeyTimeLimit ∈ records

/-- When a rotation is due, the message starts it and the session stays connected. -/
def KeyRotates (session : ServerSideSession κ) : Label → Prop
  | .messageArrived surroundings messageType body =>
      session.RotationDue config surroundings messageType body →
        session.StartsExchange (session.messageArrived config surroundings messageType body) ∧
        (session.messageArrived config surroundings messageType body).impl.isConnected = true
  | _ => True

def NoRotationDue (session : ServerSideSession κ) : Label → Prop
  | .messageArrived surroundings messageType body =>
      ¬session.RotationDue config surroundings messageType body
  | _ => True

theorem general_message_keeps_seeds {surroundings : Surroundings} {messageType : MessageType}
    {body : List UInt8} (general : isSystemMessage messageType = false) (state : SeedState κ) :
    state.messaging config surroundings messageType body = state := by
  have notPublicKey : messageType ≠ csmtSystemExchangePublicKey := by
    intro same
    rw [same] at general
    exact absurd general (by decide)
  have notConfirm : messageType ≠ csmtSystemConfirmSeed := by
    intro same
    rw [same] at general
    exact absurd general (by decide)
  unfold SeedState.messaging
  rw [if_neg notPublicKey, if_neg notConfirm]

/-- A general message that is handled leaves the coder, the exchanger and the flag alone. Only the
records of the handings are new. -/
theorem handled_message_keeps_seeds (session : ServerSideSession κ) {surroundings : Surroundings}
    {messageType : MessageType} {body : List UInt8}
    (general : isSystemMessage messageType = false)
    (unreserved : session.impl.isDisconnectReserved = false)
    (handled : (session.handleMessage config surroundings messageType body config.extensions).1 =
      .ok true) :
    ∃ records, Handings messageType body session.isSeedExchanged records ∧
      (session.messageArrived config surroundings messageType body).seedState =
        session.seedState.append records := by
  rcases session.handle_message_seedState config surroundings messageType body config.extensions with
    ⟨before, after, handings, _, state⟩
  refine ⟨before ++ after, handings, ?_⟩
  rw [general_message_keeps_seeds config general, ite_self, SeedState.append_append] at state
  rw [← state]
  unfold messageArrived messageUnmarshalled onMessageArrived
  rw [unreserved, if_neg Bool.false_ne_true]
  generalize session.handleMessage config surroundings messageType body config.extensions = result
    at handled
  rcases result with ⟨reply, next⟩
  subst handled
  rfl

theorem due_message_starts_nothing (session : ServerSideSession κ) {surroundings : Surroundings}
    {messageType : MessageType} {body : List UInt8}
    (due : session.RotationDue config surroundings messageType body) :
    ¬session.StartsExchange (session.messageArrived config surroundings messageType body) := by
  rcases session.handled_message_keeps_seeds config due.general due.handled.1 due.handled.2 with
    ⟨handed, handings, state⟩
  intro starts
  rcases starts with ⟨records, message, history, sent, _⟩
  have same : session.history ++ records = session.history ++ handed :=
    history.symm.trans (congrArg SeedState.history state)
  rw [List.append_cancel_left same] at sent
  rcases handings _ sent with ⟨extension, mismatch⟩
  cases mismatch

theorem key_rotates_iff (session : ServerSideSession κ) (label : Label) :
    session.KeyRotates config label ↔ session.NoRotationDue config label := by
  cases label with
  | messageArrived surroundings messageType body =>
      constructor
      · intro rotates due
        exact session.due_message_starts_nothing config due (rotates due).1
      · intro none due
        exact absurd due none
  | connected surroundings => exact Iff.rfl
  | transport label => exact Iff.rfl

/-- The keys rotate in exactly the runs in which no rotation is ever due. -/
theorem keys_rotate_under_traffic_iff (first last : ServerSideSession κ) (labels : List Label) :
    Run (Where (Step config) (KeyRotates config)) first labels last ↔
      Run (Where (Step config) (NoRotationDue config)) first labels last := by
  have conditions : (KeyRotates config : ServerSideSession κ → Label → Prop) =
      NoRotationDue config := by
    funext session label
    exact propext (session.key_rotates_iff config label)
  rw [conditions]

end ServerSideSession

section Concrete

def laterSurroundings : Surroundings := { rpcSurroundings with now := 600000000000 }

def exchangedTeaSession : ServerSideSession (SecurePacketCoder teaSuite CsPacketCoder) :=
  ((teaSession.sessionOpened sgpSessionConfig rpcSurroundings).messageArrived sgpSessionConfig
    rpcSurroundings 2 [0, 0]).messageArrived sgpSessionConfig rpcSurroundings 3 []

namespace ServerSideSession

/-- An RPC message arrives ten minutes after the exchange, with keys that last a minute,
is handled, and no exchange is started. -/
theorem handled_message_does_not_rotate :
    ¬∀ labels session, Run (Step sgpSessionConfig) teaSession labels session →
      ∀ label, session.KeyRotates sgpSessionConfig label := by
  intro rotates
  have opens : Run (Step sgpSessionConfig) teaSession [] _ := .start _
  have connects := opens.next (.connected rpcSurroundings rfl)
  have exchanges := (connects.next (.messageArrived _ rpcSurroundings 2 [0, 0])).next
    (.messageArrived _ rpcSurroundings 3 [])
  have due : exchangedTeaSession.RotationDue sgpSessionConfig laterSurroundings 21 [1, 0, 0, 0] :=
    { connected := rfl, general := rfl, handled := ⟨rfl, rfl⟩, exchanged := rfl, ciphered := rfl,
      expired := by decide, idle := rfl }
  have rotated := rotates _ _ exchanges (.messageArrived laterSurroundings 21 [1, 0, 0, 0])
  exact due_message_starts_nothing sgpSessionConfig _ due (rotated due).1

end ServerSideSession

end Concrete

end Sne.Server
