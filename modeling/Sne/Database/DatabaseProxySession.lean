import Sne.Library.Runs
import Sne.Server.SeedState
import Sne.Srpc.RpcTypes

/-!
# Sessions of the database proxy

`DatabaseProxyServerSideSession.cpp` with the messages of `S2sMessage.h` and of
`DatabaseProxyMessage.h`. The session registers a callback for the authentication and
one for the requests. What they do is read off the messages that were handed to the
messaging extension.
-/

namespace Sne.Database

open Sne.Base Sne.Core Sne.Session Sne.Sgp Sne.Server Sne.Srpc Sne.Library.Runs

set_option autoImplicit false

def s2smtSystemAuthenticate : MessageType := csmtSystemLast
def s2smtSystemAuthenticateResult : MessageType := 5
def s2smtSystemLast : MessageType := 6
def dbpmtSystemDelegate : MessageType := s2smtSystemLast

structure S2sAuthenticateMessage where
  certificate : List UInt8

def S2sAuthenticateMessage.read {σ : Type} [IStream σ] : StreamM σ S2sAuthenticateMessage := do
  let certificate ← readText
  pure { certificate }

structure S2sAuthenticateResultMessage where
  authenticated : Bool
  deriving DecidableEq, Repr

def S2sAuthenticateResultMessage.write {σ : Type} [OStream σ] (message : S2sAuthenticateResultMessage) :
    StreamM σ Unit :=
  OStream.writeBool message.authenticated 1

structure DbpDelegateMessage where
  request : ModifyRequest

def DbpDelegateMessage.read {σ : Type} [IStream σ] : StreamM σ DbpDelegateMessage := do
  let request ← ModifyRequest.initial.read
  pure { request }

structure DatabaseProxyService where
  serverCertificate : List UInt8

def DatabaseProxyService.authenticate (service : DatabaseProxyService) (certificate : List UInt8) :
    Bool :=
  certificate == service.serverCertificate

inductive ProxyEffect where
  | authenticate (isAuthenticated : Bool)
  | disconnectGracefully
  | sendMessage (message : S2sAuthenticateResultMessage)
  | schedule (request : ModifyRequest)
  deriving DecidableEq, Repr

inductive ProxyRecord where
  | connected
  | effect (effect : ProxyEffect)
  deriving DecidableEq, Repr

namespace DatabaseProxyServerSideSession

variable {κ : Type} [PacketCoder κ] (service : DatabaseProxyService) (config : ServerSideSessionConfig)

def authenticateMessageReceived (message : S2sAuthenticateMessage) : List ProxyEffect :=
  let isAuthenticated := service.authenticate message.certificate
  if !isAuthenticated then
    [.authenticate isAuthenticated, .disconnectGracefully]
  else
    [.authenticate isAuthenticated, .sendMessage { authenticated := isAuthenticated }]

def delegateMessageReceived (message : DbpDelegateMessage) : List ProxyEffect :=
  [.schedule message.request]

/-- The two callbacks of the session, each with the deserialization of its message. -/
def messageReceived (messageType : MessageType) (body : List UInt8) :
    Option (Except Exception (List ProxyEffect)) :=
  if messageType = s2smtSystemAuthenticate then
    some ((config.streamFactory.deserialize S2sAuthenticateMessage.read body).map
      (authenticateMessageReceived service))
  else if messageType = dbpmtSystemDelegate then
    some ((config.streamFactory.deserialize DbpDelegateMessage.read body).map delegateMessageReceived)
  else
    none

def register : ServerSideSessionConfig :=
  { config with messages := s2smtSystemAuthenticate :: dbpmtSystemDelegate :: config.messages }

def serialize (message : S2sAuthenticateResultMessage) : Except Exception (List UInt8) :=
  if config.streamFactory.useBitPacking then
    match (message.write *> OStream.align)
      (OBitStream.create (ByteQueue.mk []) config.streamFactory.shouldUseUtf8ForString) with
    | .ok _ ostream => .ok ostream.streamBuffer.items
    | .error e _ => .error e
  else
    match (message.write *> OStream.align)
      (OByteStream.mk (ByteQueue.mk []) config.streamFactory.shouldUseUtf8ForString) with
    | .ok _ ostream => .ok ostream.streamBuffer.items
    | .error e _ => .error e

def call (acquired : BlockPointer) (session : ServerSideSession κ) : ProxyEffect → Option SessionCall
  | .authenticate _ => none
  | .schedule _ => none
  | .disconnectGracefully => some .disconnectGracefully
  | .sendMessage message =>
      match serialize config message with
      | .ok body =>
          let mblock := (session.impl.marshaller.acquireSendBlock acquired.mblock).copyFrom body
          some (.sendMessage { acquired with mblock } s2smtSystemAuthenticateResult)
      | .error _ => some .disconnect

def reply (surroundings : Surroundings) (messageType : MessageType) (body : List UInt8)
    (session : ServerSideSession κ) : ExtensionReply :=
  match messageReceived service config messageType body with
  | some (.ok effects) =>
      { calls := effects.filterMap (call config surroundings.acquired session), result := .ok true }
  | some (.error _) => { calls := [.disconnect], result := .ok false }
  | none => surroundings.replies .messaging

def surroundingsOf (surroundings : Surroundings) (messageType : MessageType) (body : List UInt8)
    (session : ServerSideSession κ) : Surroundings :=
  { surroundings with
    replies := fun
      | .messaging => reply service config surroundings messageType body session
      | extension => surroundings.replies extension }

/-- The callbacks take the place of an application's. -/
def labelOf (session : ServerSideSession κ) : ServerSideSession.Label → ServerSideSession.Label
  | .messageArrived surroundings messageType body =>
      .messageArrived (surroundingsOf service config surroundings messageType body session) messageType body
  | label => label

def Step (session : ServerSideSession κ) (label : ServerSideSession.Label)
    (next : ServerSideSession κ) : Prop :=
  ServerSideSession.Step (register config) session (labelOf service config session label) next

def effectsOf (messageType : MessageType) (body : List UInt8) : List ProxyEffect :=
  match messageReceived service config messageType body with
  | some (.ok effects) => effects
  | _ => []

def proxyRecords : SessionRecord → List ProxyRecord
  | .connected => [.connected]
  | .handed .messaging messageType body _ => (effectsOf service config messageType body).map .effect
  | _ => []

def proxyHistory (session : ServerSideSession κ) : List ProxyRecord :=
  session.history.flatMap (proxyRecords service config)

variable (surroundings : Surroundings) (messageType : MessageType) (body : List UInt8)

theorem exchange_proxyHistory (effects : List ExchangeEffect) :
    (effects.map SessionRecord.exchange).flatMap (proxyRecords service config) = [] := by
  rw [List.flatMap_map]
  simp [proxyRecords]

theorem messaging_handles_history (session : ServerSideSession κ) :
    ∃ effects : List ExchangeEffect,
      (session.messagingHandles config surroundings messageType body).2.history =
        session.history ++ effects.map .exchange := by
  have state := session.messaging_handles_seedState config surroundings messageType body
  have history : (session.messagingHandles config surroundings messageType body).2.history = _ :=
    congrArg SeedState.history state
  rw [history]
  unfold SeedState.messaging
  split
  · split
    · exact ⟨_, (session.seedState.exchange_exchanger surroundings.now _).2⟩
    · exact ⟨[], (List.append_nil _).symm⟩
  · split
    · exact ⟨_, (session.seedState.exchange_exchanger surroundings.now _).2⟩
    · exact ⟨[], (List.append_nil _).symm⟩

/-- A message whose callback has done something is handled. -/
theorem declined_message_effects (session other : ServerSideSession κ)
    (declined : (session.messagingHandles (register config)
      (surroundingsOf service config surroundings messageType body other) messageType body).1 =
        .ok false) :
    effectsOf service config messageType body = [] := by
  unfold effectsOf
  split
  case h_2 => rfl
  case h_1 effects received =>
    have answers : (reply service config surroundings messageType body other).result = .ok true := by
      simp only [reply, received]
    have registered : messageType = s2smtSystemAuthenticate ∨ messageType = dbpmtSystemDelegate := by
      by_cases authenticate : messageType = s2smtSystemAuthenticate
      · exact .inl authenticate
      · by_cases delegate : messageType = dbpmtSystemDelegate
        · exact .inr delegate
        · simp only [messageReceived, if_neg authenticate, if_neg delegate] at received
          cases received
    have handled : session.messagingHandles (register config)
        (surroundingsOf service config surroundings messageType body other) messageType body =
        session.applicationHandles (reply service config surroundings messageType body other) := by
      unfold ServerSideSession.messagingHandles
      rcases registered with rfl | rfl
      · rfl
      · rfl
    rw [handled] at declined
    have mismatch := answers.symm.trans declined
    cases mismatch

theorem surroundings_reach (session : ServerSideSession κ) (extensions : List SessionExtension) :
    reachesMessaging (surroundingsOf service config surroundings messageType body session) messageType
      extensions = reachesMessaging surroundings messageType extensions := by
  induction extensions with
  | nil => rfl
  | cons extension rest induction =>
      cases extension with
      | messaging => rfl
      | rpcing =>
          rw [reachesMessaging, induction]
          rfl
      | registered id =>
          rw [reachesMessaging, induction]
          rfl

/-- The records of a message that went through the extensions: the callbacks have run when the
messaging extension was reached. -/
theorem handle_message_proxyHistory (other : ServerSideSession κ) (extensions : List SessionExtension)
    (session : ServerSideSession κ) :
    proxyHistory service config (session.handleMessage (register config)
        (surroundingsOf service config surroundings messageType body other) messageType body extensions).2 =
      proxyHistory service config session ++
        if reachesMessaging surroundings messageType extensions then
          (effectsOf service config messageType body).map .effect
        else [] := by
  let given := surroundingsOf service config surroundings messageType body other
  induction extensions generalizing session with
  | nil => simp [ServerSideSession.handleMessage, reachesMessaging]
  | cons extension rest induction =>
      let handed := session.record (.handed extension messageType body session.isSeedExchanged)
      let result := handed.extensionHandles (register config) given messageType body extension
      rcases session.handle_message_round (register config) given messageType body extension rest with
        ⟨goesOn, ends⟩
      by_cases messaging : extension = .messaging
      · subst messaging
        have history : proxyHistory service config result.2 = proxyHistory service config session ++
            (effectsOf service config messageType body).map .effect := by
          rcases messaging_handles_history (register config) given messageType body handed with
            ⟨effects, history⟩
          have whole : result.2.history = handed.history ++ effects.map .exchange := history
          rw [proxyHistory, whole, List.flatMap_append, exchange_proxyHistory, List.append_nil]
          exact List.flatMap_append.trans (congrArg _ (List.append_nil _))
        by_cases declined : result.1 = .ok false
        · have quiet := declined_message_effects service config surroundings messageType body handed
            other declined
          rw [quiet, List.map_nil, List.append_nil] at history
          rw [goesOn declined, induction result.2, history, quiet, List.map_nil, ite_self, ite_self]
        · rw [ends declined, history, reachesMessaging, if_pos rfl]
      · rcases handed.other_extension_handles (register config) given messageType body messaging rest with
          ⟨same, reaches, stops⟩
        have history : proxyHistory service config result.2 = proxyHistory service config session := by
          have whole : result.2.history = handed.history := congrArg SeedState.history same
          rw [proxyHistory, whole]
          refine List.flatMap_append.trans ?_
          cases extension with
          | messaging => exact absurd rfl messaging
          | rpcing => exact List.append_nil _
          | registered id => exact List.append_nil _
        rw [surroundings_reach, surroundings_reach] at reaches
        rw [surroundings_reach] at stops
        by_cases declined : result.1 = .ok false
        · rw [goesOn declined, induction result.2, history, reaches declined]
        · rw [ends declined, history, stops declined]
          simp

def Reaches (session : ServerSideSession κ) : Prop :=
  session.impl.isDisconnectReserved = false ∧
    reachesMessaging surroundings messageType config.extensions = true

instance (session : ServerSideSession κ) : Decidable (Reaches config surroundings messageType session) :=
  inferInstanceAs (Decidable (_ ∧ _))

theorem message_arrived_proxyHistory (session : ServerSideSession κ) :
    proxyHistory service config (session.messageArrived (register config)
        (surroundingsOf service config surroundings messageType body session) messageType body) =
      proxyHistory service config session ++
        if Reaches config surroundings messageType session then
          (effectsOf service config messageType body).map .effect
        else [] := by
  cases reserved : session.impl.isDisconnectReserved with
  | true =>
      have dropped : ¬Reaches config surroundings messageType session := by
        intro reaches
        exact absurd (reaches.1.symm.trans reserved) Bool.false_ne_true
      rw [session.message_arrived_reserved _ _ _ _ reserved, if_neg dropped, List.append_nil]
  | false =>
      have handles := handle_message_proxyHistory service config surroundings messageType body session
        config.extensions session
      have condition : Reaches config surroundings messageType session ↔
          reachesMessaging surroundings messageType config.extensions = true :=
        and_iff_right reserved
      simp only [condition]
      rw [← handles]
      rcases session.message_arrived_history (register config)
        (surroundingsOf service config surroundings messageType body session) messageType body reserved with
        ⟨effects, history⟩
      rw [proxyHistory, history, List.flatMap_append, exchange_proxyHistory, List.append_nil]
      rfl

theorem session_opened_proxyHistory (session : ServerSideSession κ) :
    proxyHistory service config (session.sessionOpened (register config) surroundings) =
      proxyHistory service config session ++ [.connected] := by
  let opened : ServerSideSession κ :=
    { ServerSideSession.record .connected { session with impl := session.impl.sessionOpened } with
      isSeedExchanged := false }
  let outcome := session.packetSeedExchanger.exchangePublicKey session.packetCoder
  have state := opened.exchange_seedState (register config) surroundings outcome
  have history : (session.sessionOpened (register config) surroundings).history =
      opened.history ++ outcome.2.map .exchange :=
    (congrArg SeedState.history state).trans
      (opened.seedState.exchange_exchanger surroundings.now outcome).2
  rw [proxyHistory, history, List.flatMap_append, exchange_proxyHistory, List.append_nil]
  exact List.flatMap_append

/-- An attempt to authenticate has been accepted, and since then there was neither another
attempt nor another connection. -/
def Authenticated (history : List ProxyRecord) : Prop :=
  ∃ earlier later, history = earlier ++ .effect (.authenticate true) :: later ∧
    .connected ∉ later ∧ ∀ isAuthenticated, .effect (.authenticate isAuthenticated) ∉ later

def ScheduleAllowed (before : List ProxyRecord) (entry : ProxyRecord) : Prop :=
  ∀ request, entry = .effect (.schedule request) → Authenticated before

/-- A request that arrives and is given to its callback comes from a peer that has
authenticated itself. -/
def DelegateAllowed (session : ServerSideSession κ) : ServerSideSession.Label → Prop
  | .messageArrived surroundings messageType body =>
      messageType = dbpmtSystemDelegate → Reaches config surroundings messageType session →
        (config.streamFactory.deserialize DbpDelegateMessage.read body).isOk = true →
        Authenticated (proxyHistory service config session)
  | _ => True

theorem other_record_allowed {history : List ProxyRecord} {record : ProxyRecord}
    (other : ∀ request, record ≠ .effect (.schedule request)) :
    Throughout ScheduleAllowed (history ++ [record]) ↔ Throughout ScheduleAllowed history := by
  rw [throughout_concat]
  apply and_iff_left
  intro request same
  exact absurd same (other request)

theorem schedule_allowed (history : List ProxyRecord) (request : ModifyRequest) :
    Throughout ScheduleAllowed (history ++ [.effect (.schedule request)]) ↔
      Throughout ScheduleAllowed history ∧ Authenticated history := by
  rw [throughout_concat]
  apply and_congr_right'
  constructor
  · intro allowed
    exact allowed request rfl
  · intro authenticated _ _
    exact authenticated

theorem effects_allowed (history : List ProxyRecord) :
    Throughout ScheduleAllowed (history ++ (effectsOf service config messageType body).map .effect) ↔
      Throughout ScheduleAllowed history ∧ (messageType = dbpmtSystemDelegate →
        (config.streamFactory.deserialize DbpDelegateMessage.read body).isOk = true →
          Authenticated history) := by
  unfold effectsOf messageReceived
  by_cases authenticate : messageType = s2smtSystemAuthenticate
  · rw [if_pos authenticate, authenticate]
    have delegates : ¬s2smtSystemAuthenticate = dbpmtSystemDelegate := by decide
    rw [and_iff_left (fun same => absurd same delegates)]
    cases config.streamFactory.deserialize S2sAuthenticateMessage.read body with
    | error e => simp [Except.map]
    | ok message =>
        have split : ∀ first second : ProxyRecord, history ++ [first, second] =
            (history ++ [first]) ++ [second] := by simp
        simp only [Except.map, authenticateMessageReceived]
        cases service.authenticate message.certificate with
        | false =>
            simp only [Bool.not_false, if_true, List.map_cons, List.map_nil]
            rw [split, other_record_allowed (by simp), other_record_allowed (by simp)]
        | true =>
            simp only [Bool.not_true, Bool.false_eq_true, if_false, List.map_cons, List.map_nil]
            rw [split, other_record_allowed (by simp), other_record_allowed (by simp)]
  · rw [if_neg authenticate]
    by_cases delegate : messageType = dbpmtSystemDelegate
    · rw [if_pos delegate]
      cases config.streamFactory.deserialize DbpDelegateMessage.read body with
      | error e => simp [Except.map, Except.isOk, Except.toBool]
      | ok message =>
          simp only [Except.map, delegateMessageReceived, List.map_cons, List.map_nil]
          rw [schedule_allowed]
          simp [Except.isOk, Except.toBool, delegate]
    · rw [if_neg delegate]
      simp [delegate]

theorem step_connected (session : ServerSideSession κ) (closed : session.impl.isConnected = false) :
    Step service config session (.connected surroundings)
      (session.sessionOpened (register config) surroundings) :=
  ServerSideSession.Step.connected surroundings closed

theorem step_messageArrived (session : ServerSideSession κ) :
    Step service config session (.messageArrived surroundings messageType body)
      (session.messageArrived (register config)
        (surroundingsOf service config surroundings messageType body session) messageType body) :=
  ServerSideSession.Step.messageArrived session _ messageType body

theorem step_allowed {session next : ServerSideSession κ} {label : ServerSideSession.Label}
    (step : Step service config session label next) :
    Throughout ScheduleAllowed (proxyHistory service config next) ↔
      Throughout ScheduleAllowed (proxyHistory service config session) ∧
        DelegateAllowed service config session label := by
  cases label with
  | connected surroundings =>
      cases step with
      | connected _ _ =>
          rw [session_opened_proxyHistory, other_record_allowed (by simp)]
          exact (and_iff_left trivial).symm
  | transport label =>
      cases step with
      | transport _ => exact (and_iff_left trivial).symm
  | messageArrived surroundings messageType body =>
      cases step with
      | messageArrived _ _ _ =>
          rw [message_arrived_proxyHistory]
          by_cases reaches : Reaches config surroundings messageType session
          · rw [if_pos reaches, effects_allowed]
            simp only [DelegateAllowed, reaches, true_implies]
          · rw [if_neg reaches, List.append_nil]
            exact (and_iff_left (fun _ reached => absurd reached reaches)).symm

/-- The requests of unauthenticated peers are kept from the scheduler in exactly the runs in
which no such peer sends one. -/
theorem requests_authenticated_iff (now : TimePoint) (packetCoder : κ) (recvBlock msgBlock : MemoryBlock)
    (maxPendablePacketCount : Nat) {labels : List ServerSideSession.Label} {last : ServerSideSession κ}
    (run : Run (Step service config)
      (.create now packetCoder recvBlock msgBlock maxPendablePacketCount) labels last) :
    Throughout ScheduleAllowed (proxyHistory service config last) ↔
      Run (Where (Step service config) (DelegateAllowed service config))
        (.create now packetCoder recvBlock msgBlock maxPendablePacketCount) labels last := by
  apply run.safe_iff (fun _ => True)
    (fun session => Throughout ScheduleAllowed (proxyHistory service config session))
    (DelegateAllowed service config) trivial
  · exact throughout_nil ScheduleAllowed
  · intro _ _ _ _ _
    trivial
  · intro session label next _ step
    exact step_allowed service config step

end DatabaseProxyServerSideSession

section Concrete

def proxyService : DatabaseProxyService := { serverCertificate := [107] }

def delegateBody : List UInt8 := [2, 1, 1, 0, 112, 1, 0, 1, 7, 0, 0, 0]

namespace DatabaseProxyServerSideSession

theorem requests_authenticated_after_certificate :
    ∃ last, Run (Step proxyService sgpSessionConfig) teaSession
        [.connected rpcSurroundings, .messageArrived rpcSurroundings 4 [1, 0, 107],
          .messageArrived rpcSurroundings 6 delegateBody] last ∧
      (proxyHistory proxyService sgpSessionConfig last).length = 4 ∧
      (Throughout ScheduleAllowed (proxyHistory proxyService sgpSessionConfig last) ↔
        Run (Where (Step proxyService sgpSessionConfig) (DelegateAllowed proxyService sgpSessionConfig))
          teaSession [.connected rpcSurroundings, .messageArrived rpcSurroundings 4 [1, 0, 107],
            .messageArrived rpcSurroundings 6 delegateBody] last) := by
  have opens : Run (Step proxyService sgpSessionConfig) teaSession [] _ := .start _
  have connects := opens.next (step_connected proxyService sgpSessionConfig rpcSurroundings _ rfl)
  have authenticates := connects.next
    (step_messageArrived proxyService sgpSessionConfig rpcSurroundings 4 [1, 0, 107] _)
  have delegates := authenticates.next
    (step_messageArrived proxyService sgpSessionConfig rpcSurroundings 6 delegateBody _)
  exact ⟨_, delegates, by decide,
    requests_authenticated_iff proxyService sgpSessionConfig 0 _ _ _ 0 delegates⟩

/-- A peer that has just connected sends a request, and it is scheduled. -/
theorem request_before_authentication_is_scheduled :
    ¬∀ labels last, Run (Step proxyService sgpSessionConfig) teaSession labels last →
      Throughout ScheduleAllowed (proxyHistory proxyService sgpSessionConfig last) := by
  intro allowed
  have opens : Run (Step proxyService sgpSessionConfig) teaSession [] _ := .start _
  have connects := opens.next (step_connected proxyService sgpSessionConfig rpcSurroundings _ rfl)
  have delegates := connects.next
    (step_messageArrived proxyService sgpSessionConfig rpcSurroundings 6 delegateBody _)
  have authenticated : Authenticated [.connected] :=
    allowed _ _ delegates [.connected] (.effect (.schedule _)) [] rfl _ rfl
  rcases authenticated with ⟨earlier, later, split, _, _⟩
  have member : ProxyRecord.effect (.authenticate true) ∈ [ProxyRecord.connected] := by
    rw [split]
    exact List.mem_append_right earlier List.mem_cons_self
  revert member
  decide

end DatabaseProxyServerSideSession

end Concrete

end Sne.Database
