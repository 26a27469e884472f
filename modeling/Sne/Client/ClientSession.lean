import Sne.Server.ServerSideSession

/-!
# The session of a client

`ClientSession.cpp` with `Heartbeater.h`. The heartbeat starts when the seeds of a
connection have been exchanged for the first time, which the exchanger reports while the
session is being connected if there is no cipher, and upon a message of the server
otherwise. What the application asks of the session in its callbacks are steps of their own, and
what its callbacks throw is part of the step that calls them.
-/

namespace Sne.Client

open Sne.Base Sne.Core Sne.Session Sne.Sgp Sne.Server Sne.Library.Runs

set_option autoImplicit false

structure RsaCipher where
  publicKey : List UInt8
  privateKey : List UInt8
  decrypt : Seed → Option Seed

/-- `hasCallback`: `callback_` is not null. -/
structure ClientSessionConfig where
  streamFactory : SneStreamFactory
  heartbeatInterval : Nat
  rsaCipher : RsaCipher
  hasCallback : Bool

/-- `generatePublicAndPrivateKey`, `encryptSeed` and `decryptSeed`. A client encrypts no seed. -/
def ClientSessionConfig.callback (config : ClientSessionConfig) : PacketSeedExchangerCallback where
  generatePublicAndPrivateKey := some (config.rsaCipher.publicKey, config.rsaCipher.privateKey)
  encryptSeed seed _ := seed
  decryptSeed := config.rsaCipher.decrypt

/-- What a handler ends with. Only a `core::Exception` is caught; `none` stands for any other. -/
abbrev Ending := Except (Option Exception)

/-- The clock, the block that the memory manager gives, and how `onValidated` ends if it is called. -/
structure ClientInputs where
  now : TimePoint
  acquired : BlockPointer
  onValidated : Ending Unit := .ok ()

/-- A heartbeat timer that was not created yet is one that was never started. The process ends
when the session uses a null `callback_`. -/
structure ClientSession (κ : Type) where
  impl : TcpSessionImpl (SgpMarshaller κ)
  seedExchanger : PacketSeedExchangerForClient := {}
  packetSeedExchanged : Bool := false
  lastSentTime : TimePoint := 0
  heartbeatTimer : AsioTimer := {}
  hasProcessEnded : Bool := false

namespace ClientSession

variable {κ : Type} [PacketCoder κ]

def packetCoder (session : ClientSession κ) : κ := session.impl.marshaller.packetCoder

def setPacketCoder (packetCoder : κ) (session : ClientSession κ) : ClientSession κ :=
  { session with
    impl := { session.impl with marshaller := { session.impl.marshaller with packetCoder } } }

def disconnect (session : ClientSession κ) : ClientSession κ :=
  { session with impl := session.impl.disconnect }

/-- `MessagingExtension::sendMessage`. -/
def sendMessage (config : ClientSessionConfig) (acquired : BlockPointer) (message : CsMessage)
    (session : ClientSession κ) : ClientSession κ :=
  match config.streamFactory.serialize message with
  | .ok body =>
      let mblock := (session.impl.marshaller.acquireSendBlock acquired.mblock).copyFrom body
      { session with impl := session.impl.sendMessage { acquired with mblock } message.messageType }
  | .error _ => session.disconnect

section Heartbeater

def startHeartbeater (config : ClientSessionConfig) (session : ClientSession κ) : ClientSession κ :=
  let heartbeatTimer := session.heartbeatTimer.cancel
  if config.heartbeatInterval > 0 then
    { session with heartbeatTimer := heartbeatTimer.startRepeat config.heartbeatInterval }
  else
    { session with heartbeatTimer }

def stopHeartbeater (session : ClientSession κ) : ClientSession κ :=
  { session with heartbeatTimer := session.heartbeatTimer.cancel }

def sendHeartbeat (config : ClientSessionConfig) (inputs : ClientInputs) (session : ClientSession κ) :
    ClientSession κ :=
  if getElapsedTime session.lastSentTime inputs.now ≥ config.heartbeatInterval then
    session.sendMessage config inputs.acquired .heartbeat
  else
    session

def timerMember : TimerMember (ClientSession κ) where
  timer session := session.heartbeatTimer
  put heartbeatTimer session := { session with heartbeatTimer }

end Heartbeater

/-- `onValidated` comes between the flag and the timer. -/
def seedExchanged (config : ClientSessionConfig) (inputs : ClientInputs) (session : ClientSession κ) :
    Ending Unit × ClientSession κ :=
  if !session.packetSeedExchanged then
    let session := { session with packetSeedExchanged := true }
    if !config.hasCallback then
      (.error none, { session with hasProcessEnded := true })
    else
      match inputs.onValidated with
      | .ok () => (.ok (), session.startHeartbeater config)
      | .error thrown => (.error thrown, session)
  else
    (.ok (), session)

def perform (config : ClientSessionConfig) (inputs : ClientInputs) (session : ClientSession κ) :
    ExchangeEffect → Ending Unit × ClientSession κ
  | .generateCipherSeed _ _ => (.ok (), session)
  | .sendMessage message => (.ok (), session.sendMessage config inputs.acquired message)
  | .setEncryptSeed seed =>
      (.ok (), session.setPacketCoder (PacketCoder.setEncryptSeed seed session.packetCoder))
  | .setDecryptSeed seed =>
      (.ok (), session.setPacketCoder (PacketCoder.setDecryptSeed seed session.packetCoder))
  | .extendCipherKeyTimeLimit => (.ok (), session.setPacketCoder
      (PacketCoder.extendCipherKeyTimeLimit inputs.now session.packetCoder))
  | .seedExchanged => session.seedExchanged config inputs

/-- Up to the first effect that throws. -/
def performAll (config : ClientSessionConfig) (inputs : ClientInputs) :
    List ExchangeEffect → ClientSession κ → Ending Unit × ClientSession κ
  | [], session => (.ok (), session)
  | effect :: effects, session =>
      match session.perform config inputs effect with
      | (.ok (), session) => performAll config inputs effects session
      | (.error thrown, session) => (.error thrown, session)

def exchange (config : ClientSessionConfig) (inputs : ClientInputs)
    (outcome : PacketSeedExchangerForClient.Outcome) (session : ClientSession κ) :
    Ending Unit × ClientSession κ :=
  { session with seedExchanger := outcome.1 }.performAll config inputs outcome.2

/-- What is thrown leaves `connect`. -/
def onConnected (config : ClientSessionConfig) (inputs : ClientInputs) (session : ClientSession κ) :
    ClientSession κ :=
  let session := { session with packetSeedExchanged := false }
  match session.exchange config inputs
      (session.seedExchanger.exchangePublicKey config.callback session.packetCoder) with
  | (.ok (), session) => session.stopHeartbeater
  | (.error _, session) => session

/-- `returns` says how `callback_->onDisconnected()` ends. -/
def onDisconnected (config : ClientSessionConfig) (returns : Ending Unit) (session : ClientSession κ) :
    ClientSession κ :=
  let session := session.stopHeartbeater
  if config.hasCallback && !returns.isOk then
    session
  else
    { session with packetSeedExchanged := false }

/-- `TcpSessionImpl::connect`, when the server accepts. -/
def connect (config : ClientSessionConfig) (inputs : ClientInputs) (session : ClientSession κ) :
    ClientSession κ :=
  { session with impl := session.impl.sessionOpened }.onConnected config inputs

def call (session : ClientSession κ) : SessionCall → ClientSession κ
  | .sendMessage mblock messageType => { session with impl := session.impl.sendMessage mblock messageType }
  | .disconnect => session.disconnect
  | .disconnectGracefully => { session with impl := session.impl.disconnectGracefully }

/-- `SessionImpl::handleMessage`. The messaging extension has the callbacks of the session and of the
exchanger, and any other message is for the application. -/
def handleMessage (config : ClientSessionConfig) (inputs : ClientInputs) (reply : ExtensionReply)
    (messageType : MessageType) (body : List UInt8) (session : ClientSession κ) :
    Ending Bool × ClientSession κ :=
  if messageType = csmtSystemHeartbeat then
    (.ok true, session)
  else if messageType = csmtSystemExchangeSeed then
    match config.streamFactory.deserialize ExchangeSeedMessage.read body with
    | .ok message =>
        let exchanged := session.exchange config inputs
          (session.seedExchanger.onExchangeSeed config.callback message)
        (exchanged.1.map fun _ => true, exchanged.2)
    | .error _ => (.ok false, session.disconnect)
  else
    (reply.result.mapError some, reply.calls.foldl call session)

/-- `TcpSessionImpl::messageUnmarshalled`, and the disconnect of `handle_read` when it fails. What
`unmarshal` does not catch leaves `handle_read`. -/
def messageArrived (config : ClientSessionConfig) (inputs : ClientInputs) (reply : ExtensionReply)
    (messageType : MessageType) (body : List UInt8) (session : ClientSession κ) : ClientSession κ :=
  if session.impl.isDisconnectReserved then
    session
  else
    match session.handleMessage config inputs reply messageType body with
    | (.ok true, session) => session
    | (.error none, session) => session
    | (_, session) => session.disconnect

def isTransfer : SessionEvent → Bool
  | .messageTransfered _ => true
  | _ => false

/-- `onMessageTransfered`, which only the handler of `sendMessage` calls. -/
def messageTransfered (label : TcpSessionImpl.Label) (impl : TcpSessionImpl (SgpMarshaller κ))
    (session : ClientSession κ) : ClientSession κ :=
  match label with
  | .handler now =>
      if (impl.events.drop session.impl.events.length).any isTransfer then
        { session with lastSentTime := now }
      else
        session
  | _ => session

def transported (config : ClientSessionConfig) (returns : Ending Unit) (label : TcpSessionImpl.Label)
    (impl : TcpSessionImpl (SgpMarshaller κ)) (session : ClientSession κ) : ClientSession κ :=
  let next := { session.messageTransfered label impl with impl }
  if session.impl.isConnected && !impl.isConnected then next.onDisconnected config returns else next

inductive Label where
  | connect (inputs : ClientInputs)
  | messageArrived (inputs : ClientInputs) (reply : ExtensionReply) (messageType : MessageType)
      (body : List UInt8)
  | transport (label : TcpSessionImpl.Label) (onDisconnected : Ending Unit)
  | timerExpires (index : Nat)
  | timerHandler (inputs : ClientInputs) (index : Nat)

/-- A message that was read before a disconnect may still arrive after it. -/
def handle (config : ClientSessionConfig) (session : ClientSession κ) : Label → Option (ClientSession κ)
  | .connect inputs => if session.impl.isConnected then none else some (session.connect config inputs)
  | .messageArrived inputs reply messageType body =>
      some (session.messageArrived config inputs reply messageType body)
  | .transport label onDisconnected =>
      (session.impl.advance label).map fun impl => session.transported config onDisconnected label impl
  | .timerExpires index => some (timerMember.modify (AsioTimer.expire index) session)
  | .timerHandler inputs index => timerMember.deliver (sendHeartbeat config inputs) index session

def advance (config : ClientSessionConfig) (session : ClientSession κ) (label : Label) :
    Option (ClientSession κ) :=
  if session.hasProcessEnded then none else session.handle config label

def Step (config : ClientSessionConfig) (session : ClientSession κ) (label : Label)
    (next : ClientSession κ) : Prop :=
  session.advance config label = some next

/-- The heartbeat of a validated connection runs with a wait outstanding, and it does not run without a
connection. -/
structure HeartbeatKept (session : ClientSession κ) : Prop where
  validated : session.impl.isConnected = true → session.packetSeedExchanged = true →
    session.heartbeatTimer.isRunning = true ∧
      ∃ wait ∈ session.heartbeatTimer.waits, wait.isAborted = false
  disconnected : session.impl.isConnected = false → session.heartbeatTimer.isRunning = false

/-- The message makes the exchanger call `seedExchanged`. -/
def exchangesSeed (config : ClientSessionConfig) (messageType : MessageType) (body : List UInt8)
    (session : ClientSession κ) : Bool :=
  !session.impl.isDisconnectReserved && decide (messageType = csmtSystemExchangeSeed) &&
    match config.streamFactory.deserialize ExchangeSeedMessage.read body with
    | .ok message =>
        decide (.seedExchanged ∈ (session.seedExchanger.onExchangeSeed config.callback message).2)
    | .error _ => false

/-- If the connection is validated now, then the heartbeat can be started afresh, and there is a callback,
which returns. -/
structure CanStart (config : ClientSessionConfig) (inputs : ClientInputs) (session : ClientSession κ) :
    Prop where
  isConnected : session.impl.isConnected = true
  waits : session.heartbeatTimer.waits = []
  hasCallback : config.hasCallback = true
  returns : inputs.onValidated.isOk = true

instance (config : ClientSessionConfig) (inputs : ClientInputs) (session : ClientSession κ) :
    Decidable (session.CanStart config inputs) :=
  decidable_of_iff (session.impl.isConnected = true ∧ session.heartbeatTimer.waits = [] ∧
      config.hasCallback = true ∧ inputs.onValidated.isOk = true)
    ⟨fun ⟨isConnected, waits, hasCallback, returns⟩ => ⟨isConnected, waits, hasCallback, returns⟩,
      fun ⟨isConnected, waits, hasCallback, returns⟩ => ⟨isConnected, waits, hasCallback, returns⟩⟩

/-- The session is connected with a cipher, and the first seed exchange can start the heartbeat. -/
def StartsFresh (config : ClientSessionConfig) (session : ClientSession κ) : Label → Prop
  | .connect _ => PacketCoder.hasPacketCipher session.packetCoder = true
  | .messageArrived inputs _ messageType body => session.exchangesSeed config messageType body = true →
      session.packetSeedExchanged = false → session.CanStart config inputs
  | .transport _ _ => True
  | .timerExpires _ => True
  | .timerHandler _ _ => True

instance (config : ClientSessionConfig) (session : ClientSession κ) (label : Label) :
    Decidable (session.StartsFresh config label) :=
  match label with
  | .connect _ => inferInstanceAs (Decidable (_ = _))
  | .messageArrived _ _ _ _ => inferInstanceAs (Decidable (_ → _ → _))
  | .transport _ _ => .isTrue trivial
  | .timerExpires _ => .isTrue trivial
  | .timerHandler _ _ => .isTrue trivial

structure Beating (heartbeatInterval : Nat) (timer : AsioTimer) : Prop where
  running : timer.isRunning = true
  waits : ∃ wait, timer.waits = [wait] ∧ wait.kind = .repeat heartbeatInterval ∧ wait.isAborted = false

theorem beating_start {heartbeatInterval : Nat} {timer : AsioTimer} (none : timer.waits = []) :
    Beating heartbeatInterval (timer.startRepeat heartbeatInterval) := by
  refine ⟨rfl, { kind := .repeat heartbeatInterval, status := .waiting }, ?_, rfl, rfl⟩
  simp only [AsioTimer.startRepeat, AsioTimer.asyncWait, none, List.map_nil, List.nil_append]

theorem Beating.expire {heartbeatInterval : Nat} {timer : AsioTimer}
    (beating : Beating heartbeatInterval timer)
    (index : Nat) : Beating heartbeatInterval (timer.expire index) := by
  rcases beating with ⟨running, wait, waits, kind, unaborted⟩
  rcases AsioTimer.expire_only index timer.isRunning wait with ⟨expired, same, sameKind, sameStatus⟩
  rw [← waits] at same
  rw [same]
  exact ⟨running, expired, rfl, sameKind.trans kind, sameStatus.trans unaborted⟩

structure Invariant (config : ClientSessionConfig) (session : ClientSession κ) : Prop where
  validated : session.impl.isConnected = true → session.packetSeedExchanged = true →
    Beating config.heartbeatInterval session.heartbeatTimer
  disconnected : session.impl.isConnected = false → session.heartbeatTimer.isRunning = false

section Frames

structure Untouched (session next : ClientSession κ) : Prop where
  isConnected : next.impl.isConnected = session.impl.isConnected
  packetSeedExchanged : next.packetSeedExchanged = session.packetSeedExchanged
  heartbeatTimer : next.heartbeatTimer = session.heartbeatTimer

omit [PacketCoder κ]

theorem Untouched.refl (session : ClientSession κ) : Untouched session session := ⟨rfl, rfl, rfl⟩

theorem Untouched.trans {first second third : ClientSession κ} (left : Untouched first second)
    (right : Untouched second third) : Untouched first third :=
  { isConnected := right.isConnected.trans left.isConnected
    packetSeedExchanged := right.packetSeedExchanged.trans left.packetSeedExchanged
    heartbeatTimer := right.heartbeatTimer.trans left.heartbeatTimer }

theorem Invariant.frame {config : ClientSessionConfig} {session next : ClientSession κ}
    (invariant : session.Invariant config) (untouched : Untouched session next) :
      next.Invariant config := by
  constructor
  · rw [untouched.isConnected, untouched.packetSeedExchanged, untouched.heartbeatTimer]
    exact invariant.validated
  · rw [untouched.isConnected, untouched.heartbeatTimer]
    exact invariant.disconnected

theorem Invariant.heartbeatKept {config : ClientSessionConfig} {session : ClientSession κ}
    (invariant : session.Invariant config) : session.HeartbeatKept := by
  refine ⟨?_, invariant.disconnected⟩
  intro connected exchanged
  rcases invariant.validated connected exchanged with ⟨running, wait, waits, _, unaborted⟩
  refine ⟨running, wait, ?_, unaborted⟩
  rw [waits]
  exact List.mem_singleton.mpr rfl

theorem calls_untouched (calls : List SessionCall) (session : ClientSession κ) :
    Untouched session (calls.foldl call session) := by
  induction calls generalizing session with
  | nil => exact .refl session
  | cons first calls induction =>
      have posts : Untouched session (session.call first) := by
        cases first <;> exact ⟨rfl, rfl, rfl⟩
      rw [List.foldl_cons]
      exact posts.trans (induction _)

end Frames

theorem send_message_untouched (config : ClientSessionConfig) (acquired : BlockPointer)
    (message : CsMessage)
    (session : ClientSession κ) : Untouched session (session.sendMessage config acquired message) := by
  unfold sendMessage
  split <;> exact ⟨rfl, rfl, rfl⟩

theorem send_heartbeat_untouched (config : ClientSessionConfig) (inputs : ClientInputs)
    (session : ClientSession κ) : Untouched session (session.sendHeartbeat config inputs) := by
  unfold sendHeartbeat
  split
  · exact send_message_untouched config inputs.acquired .heartbeat session
  · exact .refl session

theorem perform_untouched (config : ClientSessionConfig) (inputs : ClientInputs)
    (session : ClientSession κ)
    {effect : ExchangeEffect} (other : effect ≠ .seedExchanged) :
    ∃ next, session.perform config inputs effect = (.ok (), next) ∧ Untouched session next := by
  cases effect with
  | generateCipherSeed => exact ⟨_, rfl, .refl session⟩
  | sendMessage message => exact ⟨_, rfl, send_message_untouched config inputs.acquired message session⟩
  | setEncryptSeed => exact ⟨_, rfl, rfl, rfl, rfl⟩
  | setDecryptSeed => exact ⟨_, rfl, rfl, rfl, rfl⟩
  | extendCipherKeyTimeLimit => exact ⟨_, rfl, rfl, rfl, rfl⟩
  | seedExchanged => exact absurd rfl other

section Exchange

variable {config : ClientSessionConfig} {inputs : ClientInputs}

omit [PacketCoder κ] in
theorem seed_exchanged_starts (positive : 0 < config.heartbeatInterval) {session : ClientSession κ}
    (invariant : session.Invariant config)
    (canStart : session.packetSeedExchanged = false → session.CanStart config inputs) :
    ∃ next, session.seedExchanged config inputs = (.ok (), next) ∧ next.Invariant config ∧
      next.packetSeedExchanged = true := by
  unfold seedExchanged
  cases exchanged : session.packetSeedExchanged with
  | true =>
      rw [Bool.not_true, if_neg Bool.false_ne_true]
      exact ⟨session, rfl, invariant, exchanged⟩
  | false =>
      rcases canStart exchanged with ⟨connected, none, callback, returns⟩
      cases ends : inputs.onValidated with
      | error thrown =>
          rw [ends] at returns
          cases returns
      | ok _ =>
          have cancelled : session.heartbeatTimer.cancel.waits = [] := by
            simp only [AsioTimer.cancel, none, List.map_nil, ite_self]
          simp only [callback, Bool.not_false, Bool.not_true, if_true, Bool.false_eq_true, if_false]
          refine ⟨_, rfl, ?_, ?_⟩
          · rw [startHeartbeater, if_pos positive]
            constructor
            · intro _ _
              exact beating_start cancelled
            · intro closed
              exact absurd (closed.symm.trans connected) Bool.false_ne_true
          · rw [startHeartbeater, if_pos positive]

omit [PacketCoder κ] in
theorem CanStart.frame {session next : ClientSession κ} (canStart : session.CanStart config inputs)
    (untouched : Untouched session next) : next.CanStart config inputs where
  isConnected := untouched.isConnected.trans canStart.isConnected
  waits := (congrArg AsioTimer.waits untouched.heartbeatTimer).trans canStart.waits
  hasCallback := canStart.hasCallback
  returns := canStart.returns

theorem effects_invariant (positive : 0 < config.heartbeatInterval) (effects : List ExchangeEffect)
    {session : ClientSession κ} (invariant : session.Invariant config)
    (canStart : .seedExchanged ∈ effects → session.packetSeedExchanged = false →
      session.CanStart config inputs) :
    (session.performAll config inputs effects).2.Invariant config := by
  induction effects generalizing session with
  | nil => exact invariant
  | cons effect effects induction =>
      by_cases exchanged : effect = .seedExchanged
      · subst exchanged
        rcases seed_exchanged_starts positive invariant (canStart List.mem_cons_self) with
          ⟨next, starts, kept, validated⟩
        simp only [performAll, perform, starts]
        apply induction kept
        intro _ first
        exact absurd (first.symm.trans validated) Bool.false_ne_true
      · rcases perform_untouched config inputs session exchanged with ⟨next, performs, untouched⟩
        simp only [performAll, performs]
        apply induction (invariant.frame untouched)
        intro later first
        exact (canStart (List.mem_cons_of_mem effect later)
          (untouched.packetSeedExchanged.symm.trans first)).frame untouched

theorem message_arrived_invariant (positive : 0 < config.heartbeatInterval) {session : ClientSession κ}
    (invariant : session.Invariant config) (reply : ExtensionReply)
    (messageType : MessageType) (body : List UInt8)
    (canStart : session.exchangesSeed config messageType body = true →
      session.packetSeedExchanged = false → session.CanStart config inputs) :
    (session.messageArrived config inputs reply messageType body).Invariant config := by
  unfold messageArrived
  split
  · exact invariant
  · rename_i unreserved
    have handled : (session.handleMessage config inputs reply messageType body).2.Invariant config := by
      unfold handleMessage
      split
      · exact invariant
      · split
        · rename_i seeds
          split
          · rename_i message read
            apply effects_invariant positive
            · exact invariant.frame ⟨rfl, rfl, rfl⟩
            · intro member first
              have exchanges : session.exchangesSeed config messageType body = true := by
                simp only [exchangesSeed, read]
                rw [Bool.eq_false_iff.mpr unreserved, decide_eq_true seeds, decide_eq_true member]
                rfl
              exact (canStart exchanges first).frame ⟨rfl, rfl, rfl⟩
          · exact invariant.frame ⟨rfl, rfl, rfl⟩
        · exact invariant.frame (calls_untouched reply.calls session)
    split
    · rename_i same
      rw [same] at handled
      exact handled
    · rename_i same
      rw [same] at handled
      exact handled
    · rename_i same
      rw [same] at handled
      exact handled.frame ⟨rfl, rfl, rfl⟩

end Exchange

/-- With a cipher the heartbeat is not started before the server's message. -/
theorem connect_invariant {config : ClientSessionConfig} (inputs : ClientInputs)
    (session : ClientSession κ)
    (ciphers : PacketCoder.hasPacketCipher session.packetCoder = true) :
    (session.connect config inputs).Invariant config := by
  let opened : ClientSession κ :=
    { session with impl := session.impl.sessionOpened, packetSeedExchanged := false }
  have offers : opened.seedExchanger.exchangePublicKey config.callback opened.packetCoder =
      ({ opened.seedExchanger with privateKey := config.rsaCipher.privateKey },
        [.sendMessage (.exchangePublicKey { publicKey := config.rsaCipher.publicKey })]) := by
    have same : PacketCoder.hasPacketCipher opened.packetCoder = true := ciphers
    rw [PacketSeedExchangerForClient.exchangePublicKey, same]
    rfl
  have sends := send_message_untouched config inputs.acquired
    (.exchangePublicKey { publicKey := config.rsaCipher.publicKey })
    { opened with seedExchanger :=
        { opened.seedExchanger with privateKey := config.rsaCipher.privateKey } }
  have connected : session.connect config inputs = (({ opened with
      seedExchanger := { opened.seedExchanger with privateKey := config.rsaCipher.privateKey }
      }.sendMessage config inputs.acquired
        (.exchangePublicKey { publicKey := config.rsaCipher.publicKey }))).stopHeartbeater := by
    change opened.onConnected config inputs = _
    unfold onConnected
    change (match opened.exchange config inputs (opened.seedExchanger.exchangePublicKey config.callback
      opened.packetCoder) with
      | (.ok (), session) => session.stopHeartbeater
      | (.error _, session) => session) = _
    rw [offers]
    rfl
  rw [connected]
  constructor
  · intro _ exchanged
    exact absurd (sends.packetSeedExchanged.symm.trans exchanged) Bool.false_ne_true
  · intro _
    rfl

section Timer

theorem completion_keeps (config : ClientSessionConfig) (inputs : ClientInputs) (kind : WaitKind)
    (error : ErrorCode) (session : ClientSession κ) :
    (timerMember.handleCompletion (sendHeartbeat config inputs) kind error session).impl.isConnected =
      session.impl.isConnected ∧
    (timerMember.handleCompletion (sendHeartbeat config inputs) kind error session).packetSeedExchanged =
      session.packetSeedExchanged := by
  cases kind with
  | once =>
      simp only [TimerMember.handleCompletion, TimerMember.handleTimeout]
      split
      · have sends := send_heartbeat_untouched config inputs (timerMember.stop session)
        exact ⟨sends.isConnected, sends.packetSeedExchanged⟩
      · exact ⟨rfl, rfl⟩
  | «repeat» timeout =>
      simp only [TimerMember.handleCompletion, TimerMember.handleRepeatTimeout]
      split
      · split
        · have sends := send_heartbeat_untouched config inputs
            (timerMember.modify (AsioTimer.startRepeat timeout) session)
          exact ⟨sends.isConnected, sends.packetSeedExchanged⟩
        · exact ⟨rfl, rfl⟩
      · exact ⟨rfl, rfl⟩

variable {config : ClientSessionConfig} {inputs : ClientInputs}

/-- The next wait follows the one that has completed. -/
theorem Beating.delivered {session next : ClientSession κ} {index : Nat}
    (beating : Beating config.heartbeatInterval session.heartbeatTimer)
    (delivers : timerMember.deliver (sendHeartbeat config inputs) index session = some next) :
    Beating config.heartbeatInterval next.heartbeatTimer := by
  rcases timerMember.deliver_cases delivers with ⟨wait, error, found, completed, same⟩
  rcases beating with ⟨running, only, waits, kind, unaborted⟩
  have timerWaits : (timerMember.timer session).waits = [only] := waits
  rw [timerWaits] at found
  rcases List.getElem?_eq_some_iff.mp found with ⟨inside, isOnly⟩
  have first : index = 0 := by simpa using inside
  subst first
  have isWait : wait = only := isOnly.symm
  subst isWait
  have succeeded : error = .success := Wait.completion_unaborted completed unaborted
  have runs : (timerMember.timer (timerMember.modify (fun timer =>
      { timer with waits := timer.waits.eraseIdx 0 }) session)).isRunning = true := running
  rw [same, kind, succeeded, TimerMember.handleCompletion, TimerMember.handleRepeatTimeout, if_pos rfl,
    if_pos runs, (send_heartbeat_untouched config inputs _).heartbeatTimer]
  apply beating_start
  simp only [timerMember, TimerMember.modify, waits, List.eraseIdx_zero, List.tail_cons]

theorem timer_handler_invariant {session next : ClientSession κ} {index : Nat}
    (invariant : session.Invariant config)
    (delivers : timerMember.deliver (sendHeartbeat config inputs) index session = some next) :
    next.Invariant config := by
  rcases timerMember.deliver_cases delivers with ⟨wait, error, found, completed, same⟩
  have keeps := completion_keeps config inputs wait.kind error
    (timerMember.modify (fun timer => { timer with waits := timer.waits.eraseIdx index }) session)
  rw [← same] at keeps
  constructor
  · intro connected exchanged
    have beating := invariant.validated (keeps.1.symm.trans connected) (keeps.2.symm.trans exchanged)
    exact beating.delivered delivers
  · intro closed
    have stopped : (timerMember.timer (timerMember.modify (fun timer =>
        { timer with waits := timer.waits.eraseIdx index }) session)).isRunning = false :=
      invariant.disconnected (keeps.1.symm.trans closed)
    rw [same]
    cases timerMember.handle_completion_stopped (sendHeartbeat config inputs) wait.kind error stopped with
    | inl ignored =>
        rw [ignored]
        exact stopped
    | inr halted =>
        rw [halted]
        rfl

end Timer

omit [PacketCoder κ] in
theorem message_transfered_untouched (label : TcpSessionImpl.Label)
    (impl : TcpSessionImpl (SgpMarshaller κ))
    (session : ClientSession κ) : Untouched session (session.messageTransfered label impl) := by
  unfold messageTransfered
  split
  · split <;> exact ⟨rfl, rfl, rfl⟩
  · exact .refl session

theorem transported_invariant {config : ClientSessionConfig} {session : ClientSession κ}
    {label : TcpSessionImpl.Label} {impl : TcpSessionImpl (SgpMarshaller κ)} (returns : Ending Unit)
    (invariant : session.Invariant config) (step : TcpSessionImpl.Step session.impl label impl) :
    (session.transported config returns label impl).Invariant config := by
  have transfered := message_transfered_untouched label impl session
  unfold transported
  dsimp only
  split
  · rename_i closes
    rw [Bool.and_eq_true, Bool.not_eq_true'] at closes
    unfold onDisconnected
    dsimp only
    split <;> exact
      { validated := fun connected _ => absurd (closes.2.symm.trans connected) Bool.false_ne_true
        disconnected := fun _ => rfl }
  · rename_i stays
    exact invariant.frame ⟨step.same_connection stays, transfered.packetSeedExchanged,
      transfered.heartbeatTimer⟩

theorem Step.invariant {config : ClientSessionConfig} (positive : 0 < config.heartbeatInterval)
    {session next : ClientSession κ} {label : Label} (step : Step config session label next)
    (fresh : session.StartsFresh config label) (invariant : session.Invariant config) :
    next.Invariant config := by
  unfold Step advance at step
  split at step
  · cases step
  cases label with
  | connect inputs =>
      simp only [handle] at step
      split at step
      · cases step
      · cases step
        exact connect_invariant inputs session fresh
  | messageArrived inputs reply messageType body =>
      cases step
      exact message_arrived_invariant positive invariant reply messageType body fresh
  | transport label returns =>
      rcases Option.map_eq_some_iff.mp step with ⟨impl, advances, same⟩
      rw [← same]
      exact transported_invariant returns invariant (session.impl.advance_sound label impl advances)
  | timerExpires index =>
      cases step
      constructor
      · intro connected exchanged
        exact (invariant.validated connected exchanged).expire index
      · exact invariant.disconnected
  | timerHandler inputs index => exact timer_handler_invariant invariant step

/-- As long as it is started afresh, the heartbeat of a validated client keeps running until the client is
disconnected. -/
theorem heartbeat_kept (config : ClientSessionConfig) (positive : 0 < config.heartbeatInterval)
    (impl : TcpSessionImpl (SgpMarshaller κ)) {labels : List Label} {last : ClientSession κ}
    (run : Run (Where (Step config) (StartsFresh config)) { impl } labels last) :
      last.HeartbeatKept := by
  have invariant : last.Invariant config := by
    apply run.invariant (fun _ session => session.Invariant config)
    · constructor
      · intro _ exchanged
        cases exchanged
      · intro _
        rfl
    · intro history session label next invariant step
      exact Step.invariant positive step.1 step.2 invariant
  exact invariant.heartbeatKept

section Concrete

def sgpClientConfig : ClientSessionConfig :=
  { streamFactory := { shouldUseUtf8ForString := true, useBitPacking := false }
    heartbeatInterval := 5000
    rsaCipher := { publicKey := [1], privateKey := [2], decrypt := some }
    hasCallback := true }

def firstInputs : ClientInputs := { now := 0, acquired := { address := 0, mblock := .create 64 } }

def teaClient : ClientSession (SecurePacketCoder teaSuite CsPacketCoder) :=
  { impl := .create 0 (.create (.create .mk 60000 false) (.create 64) (.create 64)) 0 }

def plainClient : ClientSession CsPacketCoder :=
  { impl := .create 0 (.create .mk (.create 64) (.create 64)) 0 }

def handlesAll : ExtensionReply := { calls := [], result := .ok true }

def validating : List Label :=
  [.connect firstInputs, .messageArrived firstInputs handlesAll csmtSystemExchangeSeed [0, 0, 0, 0, 0, 0],
    .timerExpires 0, .timerHandler { firstInputs with now := 5000000000 } 0]

theorem heartbeat_kept_validating :
    ∃ last : ClientSession (SecurePacketCoder teaSuite CsPacketCoder),
      Run (Where (Step sgpClientConfig) (StartsFresh sgpClientConfig)) teaClient validating last ∧
      last.impl.isConnected = true ∧ last.packetSeedExchanged = true ∧ last.HeartbeatKept := by
  have executes : (execute (guarded (advance sgpClientConfig) (StartsFresh sgpClientConfig)) teaClient
      validating).map (fun last => (last.impl.isConnected, last.packetSeedExchanged)) =
      some (true, true) := by
    decide +kernel
  rcases Run.of_guarded (Step sgpClientConfig) (StartsFresh sgpClientConfig) (fun _ _ _ taken => taken)
    executes with ⟨last, run, facts⟩
  simp only [Prod.mk.injEq] at facts
  exact ⟨last, run, facts.1, facts.2, heartbeat_kept sgpClientConfig (by decide) teaClient.impl run⟩

/-- Without a cipher the exchanger starts the heartbeat and `onConnected` stops it. -/
theorem plain_client_is_silent :
    ¬∀ labels (last : ClientSession CsPacketCoder), Run (Step sgpClientConfig) plainClient labels last →
      last.HeartbeatKept := by
  intro kept
  have executes : (execute (advance sgpClientConfig) plainClient [.connect firstInputs]).map (fun last =>
      (last.impl.isConnected, last.packetSeedExchanged, last.heartbeatTimer.isRunning)) =
      some (true, true, false) := by
    decide +kernel
  rcases Run.of_observed (Step sgpClientConfig) (fun _ _ _ taken => taken) executes with ⟨last, run, facts⟩
  simp only [Prod.mk.injEq] at facts
  have running := ((kept _ _ run).validated facts.1 facts.2.1).1
  exact absurd (facts.2.2.symm.trans running) Bool.false_ne_true

end Concrete

end ClientSession

end Sne.Client
