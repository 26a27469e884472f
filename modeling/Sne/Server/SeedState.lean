import Sne.Server.ServerSideSession

/-!
# What a session knows about its seeds

The coder, the exchanger, the flag and the records of a session. What the session
posts to the transport and what an application asks of it leave them alone, so that
a message changes them through the messaging extension and through `exchangeNextSeed`
only.
-/

namespace Sne.Server

open Sne.Core Sne.Session Sne.Sgp

set_option autoImplicit false

structure SeedState (κ : Type) where
  packetCoder : κ
  packetSeedExchanger : PacketSeedExchangerForServer
  isSeedExchanged : Bool
  history : List SessionRecord

namespace SeedState

variable {κ : Type} [PacketCoder κ]

def append (records : List SessionRecord) (state : SeedState κ) : SeedState κ :=
  { state with history := state.history ++ records }

def perform (now : TimePoint) (state : SeedState κ) (effect : ExchangeEffect) : SeedState κ :=
  let state := state.append [.exchange effect]
  match effect with
  | .generateCipherSeed _ _ => state
  | .sendMessage _ => state
  | .setEncryptSeed seed =>
      { state with packetCoder := PacketCoder.setEncryptSeed seed state.packetCoder }
  | .setDecryptSeed seed =>
      { state with packetCoder := PacketCoder.setDecryptSeed seed state.packetCoder }
  | .extendCipherKeyTimeLimit =>
      { state with packetCoder := PacketCoder.extendCipherKeyTimeLimit now state.packetCoder }
  | .seedExchanged => { state with isSeedExchanged := true }

def exchange (now : TimePoint) (outcome : PacketSeedExchangerForServer.Outcome) (state : SeedState κ) :
    SeedState κ :=
  outcome.2.foldl (perform now) { state with packetSeedExchanger := outcome.1 }

def exchangeNextSeed (surroundings : Surroundings) (state : SeedState κ) : SeedState κ :=
  state.exchange surroundings.now (state.packetSeedExchanger.exchangeNextSeed surroundings.callback
    surroundings.now surroundings.clock state.packetCoder)

def messaging (config : ServerSideSessionConfig) (surroundings : Surroundings)
    (messageType : MessageType) (body : List UInt8) (state : SeedState κ) : SeedState κ :=
  if messageType = csmtSystemExchangePublicKey then
    match config.streamFactory.deserialize ExchangePublicKeyMessage.read body with
    | .ok message => state.exchange surroundings.now
        (state.packetSeedExchanger.onExchangePublicKey surroundings.callback surroundings.clock
          state.packetCoder message)
    | .error _ => state
  else if messageType = csmtSystemConfirmSeed then
    state.exchange surroundings.now state.packetSeedExchanger.onConfirmSeed
  else
    state

omit [PacketCoder κ] in
theorem append_nil (state : SeedState κ) : state.append [] = state := by
  simp only [append, List.append_nil]

omit [PacketCoder κ] in
theorem append_append (first second : List SessionRecord) (state : SeedState κ) :
    (state.append first).append second = state.append (first ++ second) := by
  simp only [append, List.append_assoc]

theorem perform_exchanger (now : TimePoint) (state : SeedState κ) (effect : ExchangeEffect) :
    (state.perform now effect).packetSeedExchanger = state.packetSeedExchanger ∧
      (state.perform now effect).history = state.history ++ [.exchange effect] := by
  cases effect <;> exact ⟨rfl, rfl⟩

theorem exchange_exchanger (now : TimePoint) (outcome : PacketSeedExchangerForServer.Outcome)
    (state : SeedState κ) :
    (state.exchange now outcome).packetSeedExchanger = outcome.1 ∧
      (state.exchange now outcome).history = state.history ++ outcome.2.map .exchange := by
  have folded : ∀ (effects : List ExchangeEffect) (state : SeedState κ),
      (effects.foldl (perform now) state).packetSeedExchanger = state.packetSeedExchanger ∧
        (effects.foldl (perform now) state).history = state.history ++ effects.map .exchange := by
    intro effects
    induction effects with
    | nil => exact fun state => ⟨rfl, by simp⟩
    | cons effect rest induction =>
        intro state
        have first := state.perform_exchanger now effect
        have others := induction (state.perform now effect)
        rw [List.foldl_cons, others.1, others.2, first.1, first.2]
        exact ⟨rfl, by simp⟩
  exact folded outcome.2 { state with packetSeedExchanger := outcome.1 }

end SeedState

def ExtensionReply.declines (reply : ExtensionReply) : Bool :=
  match reply.result with
  | .ok handled => !handled
  | .error _ => false

def reachesMessaging (surroundings : Surroundings) (messageType : MessageType) :
    List SessionExtension → Bool
  | [] => false
  | .messaging :: _ => true
  | .rpcing :: rest =>
      (decide (messageType ≠ csmtRpc) || (surroundings.replies .rpcing).declines) &&
        reachesMessaging surroundings messageType rest
  | .registered id :: rest =>
      (surroundings.replies (.registered id)).declines &&
        reachesMessaging surroundings messageType rest

namespace ServerSideSession

variable {κ : Type} [PacketCoder κ]

def seedState (session : ServerSideSession κ) : SeedState κ :=
  { packetCoder := session.packetCoder
    packetSeedExchanger := session.packetSeedExchanger
    isSeedExchanged := session.isSeedExchanged
    history := session.history }

omit [PacketCoder κ] in
theorem disconnect_seedState (session : ServerSideSession κ) :
    session.disconnect.seedState = session.seedState := rfl

theorem send_message_seedState (session : ServerSideSession κ) (config : ServerSideSessionConfig)
    (acquired : BlockPointer) (message : CsMessage) :
    (session.sendMessage config acquired message).seedState = session.seedState := by
  unfold sendMessage
  split <;> rfl

theorem perform_seedState (session : ServerSideSession κ) (config : ServerSideSessionConfig)
    (surroundings : Surroundings) (effect : ExchangeEffect) :
    (session.perform config surroundings effect).seedState =
      session.seedState.perform surroundings.now effect := by
  cases effect with
  | sendMessage message =>
      exact (session.record (.exchange (.sendMessage message))).send_message_seedState config
        surroundings.acquired message
  | _ => rfl

theorem exchange_seedState (session : ServerSideSession κ) (config : ServerSideSessionConfig)
    (surroundings : Surroundings) (outcome : PacketSeedExchangerForServer.Outcome) :
    (session.exchange config surroundings outcome).seedState =
      session.seedState.exchange surroundings.now outcome := by
  have folded : ∀ (effects : List ExchangeEffect) (session : ServerSideSession κ),
      (effects.foldl (perform config surroundings) session).seedState =
        effects.foldl (SeedState.perform surroundings.now) session.seedState := by
    intro effects
    induction effects with
    | nil => exact fun _ => rfl
    | cons effect rest induction =>
        intro session
        rw [List.foldl_cons, induction, perform_seedState, List.foldl_cons]
  exact folded outcome.2 _

omit [PacketCoder κ] in
theorem application_handles_seedState (session : ServerSideSession κ) (reply : ExtensionReply) :
    (session.applicationHandles reply).2.seedState = session.seedState := by
  have folded : ∀ (calls : List SessionCall) (session : ServerSideSession κ),
      (calls.foldl call session).seedState = session.seedState := by
    intro calls
    induction calls with
    | nil => exact fun _ => rfl
    | cons first rest induction =>
        intro session
        rw [List.foldl_cons, induction]
        cases first <;> rfl
  exact folded reply.calls session

variable (config : ServerSideSessionConfig) (surroundings : Surroundings)
  (messageType : MessageType) (body : List UInt8)

theorem messaging_handles_seedState (session : ServerSideSession κ) :
    (session.messagingHandles config surroundings messageType body).2.seedState =
      session.seedState.messaging config surroundings messageType body := by
  unfold messagingHandles SeedState.messaging
  by_cases heartbeat : messageType = csmtSystemHeartbeat
  · subst heartbeat
    rfl
  · rw [if_neg heartbeat]
    by_cases publicKey : messageType = csmtSystemExchangePublicKey
    · rw [if_pos publicKey, if_pos publicKey]
      cases config.streamFactory.deserialize ExchangePublicKeyMessage.read body with
      | ok message => exact session.exchange_seedState config surroundings _
      | error e => rfl
    · rw [if_neg publicKey, if_neg publicKey]
      by_cases confirm : messageType = csmtSystemConfirmSeed
      · rw [if_pos confirm, if_pos confirm]
        exact session.exchange_seedState config surroundings _
      · rw [if_neg confirm, if_neg confirm]
        split
        · exact session.application_handles_seedState _
        · rfl

theorem messaging_declines (session : ServerSideSession κ)
    (declined : (session.messagingHandles config surroundings messageType body).1 = .ok false)
    (state : SeedState κ) : state.messaging config surroundings messageType body = state := by
  unfold messagingHandles at declined
  unfold SeedState.messaging
  by_cases heartbeat : messageType = csmtSystemHeartbeat
  · subst heartbeat
    rfl
  · rw [if_neg heartbeat] at declined
    by_cases publicKey : messageType = csmtSystemExchangePublicKey
    · rw [if_pos publicKey] at declined ⊢
      cases parsed : config.streamFactory.deserialize ExchangePublicKeyMessage.read body with
      | ok message =>
          rw [parsed] at declined
          cases declined
      | error e => rfl
    · rw [if_neg publicKey] at declined ⊢
      by_cases confirm : messageType = csmtSystemConfirmSeed
      · rw [if_pos confirm] at declined
        cases declined
      · rw [if_neg confirm]

/-- The records of a message that was handed to extensions. -/
def Handings (isSeedExchanged : Bool) (records : List SessionRecord) : Prop :=
  ∀ entry ∈ records, ∃ extension, entry = .handed extension messageType body isSeedExchanged

/-- An extension other than the messaging extension. -/
theorem other_extension_handles (session : ServerSideSession κ) {extension : SessionExtension}
    (other : extension ≠ .messaging) (rest : List SessionExtension) :
    let result := session.extensionHandles config surroundings messageType body extension
    let reaches := reachesMessaging surroundings messageType (extension :: rest)
    result.2.seedState = session.seedState ∧
      (result.1 = .ok false → reaches = reachesMessaging surroundings messageType rest) ∧
      (result.1 ≠ .ok false → reaches = false) := by
  have replies : ∀ reply : ExtensionReply, (session.applicationHandles reply).2.seedState =
      session.seedState ∧ ((session.applicationHandles reply).1 = .ok false → reply.declines = true) ∧
      ((session.applicationHandles reply).1 ≠ .ok false → reply.declines = false) := by
    intro reply
    refine ⟨session.application_handles_seedState reply, ?_⟩
    rcases reply with ⟨calls, e | handled⟩
    · exact ⟨nofun, fun _ => rfl⟩
    · cases handled with
      | false => exact ⟨fun _ => rfl, fun handled => absurd rfl handled⟩
      | true => exact ⟨nofun, fun _ => rfl⟩
  intro result reaches
  cases extension with
  | messaging => exact absurd rfl other
  | rpcing =>
      have reachesRpcing : reaches = ((decide (messageType ≠ csmtRpc) ||
          (surroundings.replies .rpcing).declines) && reachesMessaging surroundings messageType rest) := rfl
      by_cases rpc : messageType = csmtRpc
      · have asked : result = session.applicationHandles (surroundings.replies .rpcing) :=
          if_neg (by simpa using rpc)
        rcases replies (surroundings.replies .rpcing) with ⟨same, declines, handles⟩
        rw [asked, reachesRpcing]
        refine ⟨same, fun declined => ?_, fun handled => ?_⟩
        · rw [declines declined, Bool.or_true, Bool.true_and]
        · rw [handles handled, Bool.or_false, decide_eq_false (by simpa using rpc), Bool.false_and]
      · have ignored : result = (.ok false, session) := if_pos rpc
        rw [ignored, reachesRpcing, decide_eq_true rpc, Bool.true_or, Bool.true_and]
        exact ⟨rfl, fun _ => rfl, fun handled => absurd rfl handled⟩
  | registered id =>
      have reachesRegistered : reaches = ((surroundings.replies (.registered id)).declines &&
          reachesMessaging surroundings messageType rest) := rfl
      rcases replies (surroundings.replies (.registered id)) with ⟨same, declines, handles⟩
      rw [reachesRegistered]
      refine ⟨same, fun declined => ?_, fun handled => ?_⟩
      · rw [declines declined, Bool.true_and]
      · rw [handles handled, Bool.false_and]

theorem handle_message_round (extension : SessionExtension) (rest : List SessionExtension)
    (session : ServerSideSession κ) :
    let handed := session.record (.handed extension messageType body session.isSeedExchanged)
    let result := handed.extensionHandles config surroundings messageType body extension
    (result.1 = .ok false → session.handleMessage config surroundings messageType body
      (extension :: rest) = result.2.handleMessage config surroundings messageType body rest) ∧
    (result.1 ≠ .ok false → session.handleMessage config surroundings messageType body
      (extension :: rest) = result) := by
  rw [handleMessage]
  dsimp only
  generalize (session.record _).extensionHandles config surroundings messageType body extension = result
  rcases result with ⟨e | handled, next⟩
  · exact ⟨nofun, fun _ => rfl⟩
  · cases handled with
    | false => exact ⟨fun _ => rfl, fun handled => absurd rfl handled⟩
    | true => exact ⟨nofun, fun _ => rfl⟩

theorem handle_message_seedState (extensions : List SessionExtension) (session : ServerSideSession κ) :
    ∃ before after, Handings messageType body session.isSeedExchanged (before ++ after) ∧
      (extensions ≠ [] → before ++ after ≠ []) ∧
      (session.handleMessage config surroundings messageType body extensions).2.seedState =
        (if reachesMessaging surroundings messageType extensions then
          (session.seedState.append before).messaging config surroundings messageType body
        else session.seedState.append before).append after := by
  induction extensions generalizing session with
  | nil =>
      refine ⟨[], [], by simp [Handings], by simp, ?_⟩
      simp [handleMessage, reachesMessaging, SeedState.append]
  | cons extension rest induction =>
      let entry : SessionRecord := .handed extension messageType body session.isSeedExchanged
      let handed := session.record entry
      let result := handed.extensionHandles config surroundings messageType body extension
      have longer : ∀ records, Handings messageType body session.isSeedExchanged records →
          Handings messageType body session.isSeedExchanged (entry :: records) := by
        intro records handings other member
        rcases List.mem_cons.mp member with rfl | later
        · exact ⟨extension, rfl⟩
        · exact handings other later
      have single : Handings messageType body session.isSeedExchanged [entry] :=
        longer [] (by simp [Handings])
      rcases session.handle_message_round config surroundings messageType body extension rest with
        ⟨goesOn, ends⟩
      by_cases declined : result.1 = .ok false
      · rcases induction result.2 with ⟨before, after, handings, _, state⟩
        rw [goesOn declined]
        by_cases messaging : extension = .messaging
        · subst messaging
          have quiet := handed.messaging_declines config surroundings messageType body declined
          have same : result.2.seedState = session.seedState.append [entry] := by
            exact (handed.messaging_handles_seedState config surroundings messageType body).trans
              (quiet _)
          have flag : result.2.isSeedExchanged = session.isSeedExchanged :=
            congrArg SeedState.isSeedExchanged same
          rw [flag] at handings
          refine ⟨[entry], before ++ after, longer _ handings, fun _ => by simp, ?_⟩
          rw [state, quiet, quiet, ite_self, ite_self, same, SeedState.append_append,
            SeedState.append_append]
        · rcases handed.other_extension_handles config surroundings messageType body messaging rest with
            ⟨same, reaches, _⟩
          have flag : result.2.isSeedExchanged = session.isSeedExchanged :=
            congrArg SeedState.isSeedExchanged same
          rw [flag] at handings
          refine ⟨entry :: before, after, longer _ handings, fun _ => by simp, ?_⟩
          have split : session.seedState.append (entry :: before) =
              handed.seedState.append before := (SeedState.append_append [entry] before _).symm
          rw [state, reaches declined, same, split]
      · rw [ends declined]
        refine ⟨[entry], [], single, fun _ => by simp, ?_⟩
        by_cases messaging : extension = .messaging
        · subst messaging
          rw [SeedState.append_nil]
          exact handed.messaging_handles_seedState config surroundings messageType body
        · rcases handed.other_extension_handles config surroundings messageType body messaging rest with
            ⟨same, _, reaches⟩
          rw [reaches declined, if_neg (by decide), SeedState.append_nil]
          exact same

/-- While no disconnect is reserved, a message goes through the extensions, and the
exchange that may follow is that of `exchangeNextSeed`. -/
theorem message_arrived_seedState (session : ServerSideSession κ)
    (unreserved : session.impl.isDisconnectReserved = false) :
    ∃ before after state, Handings messageType body session.isSeedExchanged (before ++ after) ∧
      before ++ after ≠ [] ∧
      state = (if reachesMessaging surroundings messageType config.extensions then
          (session.seedState.append before).messaging config surroundings messageType body
        else session.seedState.append before).append after ∧
      ((session.messageArrived config surroundings messageType body).seedState = state ∨
        (session.messageArrived config surroundings messageType body).seedState =
          state.exchangeNextSeed surroundings) := by
  rcases session.handle_message_seedState config surroundings messageType body config.extensions with
    ⟨before, after, handings, some, state⟩
  have extensions : config.extensions ≠ [] := List.ne_nil_of_mem config.hasMessaging
  refine ⟨before, after, _, handings, some extensions, rfl, ?_⟩
  rw [← state]
  unfold messageArrived messageUnmarshalled onMessageArrived
  rw [unreserved, if_neg Bool.false_ne_true]
  generalize session.handleMessage config surroundings messageType body config.extensions = result
  rcases result with ⟨e | handled, next⟩
  · exact .inl rfl
  · cases handled with
    | true => exact .inl rfl
    | false =>
        cases exchanged : next.isSeedExchanged with
        | false =>
            left
            simp [exchanged, disconnect_seedState]
        | true =>
            right
            simp only [exchanged, Bool.not_true, Bool.false_eq_true, if_false, disconnect_seedState]
            exact next.exchange_seedState config surroundings _

/-- Beside the extensions only `exchangeNextSeed` leaves records of a message. -/
theorem message_arrived_history (session : ServerSideSession κ)
    (unreserved : session.impl.isDisconnectReserved = false) :
    ∃ effects : List ExchangeEffect,
      (session.messageArrived config surroundings messageType body).history =
        (session.handleMessage config surroundings messageType body config.extensions).2.history ++
          effects.map .exchange := by
  unfold messageArrived messageUnmarshalled onMessageArrived
  rw [unreserved, if_neg Bool.false_ne_true]
  generalize session.handleMessage config surroundings messageType body config.extensions = result
  rcases result with ⟨e | handled, next⟩
  · exact ⟨[], (List.append_nil _).symm⟩
  · cases handled with
    | true => exact ⟨[], (List.append_nil _).symm⟩
    | false =>
        cases exchanged : next.isSeedExchanged with
        | false =>
            refine ⟨[], ?_⟩
            simp [exchanged, disconnect]
        | true =>
            let outcome := next.packetSeedExchanger.exchangeNextSeed surroundings.callback
              surroundings.now surroundings.clock next.packetCoder
            refine ⟨outcome.2, ?_⟩
            have state := next.exchange_seedState config surroundings outcome
            simp only [exchanged, Bool.not_true, Bool.false_eq_true, if_false]
            exact (congrArg SeedState.history state).trans
              (next.seedState.exchange_exchanger surroundings.now outcome).2

theorem message_arrived_reserved (session : ServerSideSession κ)
    (reserved : session.impl.isDisconnectReserved = true) :
    session.messageArrived config surroundings messageType body = session := by
  unfold messageArrived messageUnmarshalled
  rw [if_pos reserved]

end ServerSideSession

end Sne.Server
