import Sne.Session.TcpSessionImpl
import Sne.Sgp.PacketSeedExchanger
import Sne.Sgp.TeaSuite

/-!
# The server side of a session

`ServerSideSession.cpp` with what it calls in `Session.cpp`, `SessionImpl.cpp` and
`MessagingExtension.cpp`, built without assertions. A message that the marshaller has
taken from the connection goes through the extensions in the order of their hash map.
The state records the connections, the messages handed to extensions and the effects
of the seed exchanger.
-/

namespace Sne.Server

open Sne.Base Sne.Core Sne.Session Sne.Sgp

set_option autoImplicit false

inductive SessionExtension where
  | messaging
  | rpcing
  | registered (id : Nat)
  deriving DecidableEq, Repr

/-- What the code of an application may ask of the session. -/
inductive SessionCall where
  | sendMessage (mblock : BlockPointer) (messageType : MessageType)
  | disconnect
  | disconnectGracefully

/-- What the handler of an application does with a message: it handles it or not, or
throws. -/
structure ExtensionReply where
  calls : List SessionCall
  result : Except Exception Bool

structure Surroundings where
  now : TimePoint
  clock : UInt32
  callback : PacketSeedExchangerCallback
  acquired : BlockPointer
  replies : SessionExtension → ExtensionReply

/-- `extensions` lists the extension map in its order, and `messages` the types of the
messages that the application has registered with the messaging extension. -/
structure ServerSideSessionConfig where
  streamFactory : SneStreamFactory
  extensions : List SessionExtension
  messages : List MessageType
  hasMessaging : .messaging ∈ extensions

inductive SessionRecord where
  | connected
  | handed (extension : SessionExtension) (messageType : MessageType) (body : List UInt8)
      (isSeedExchanged : Bool)
  | exchange (effect : ExchangeEffect)
  deriving DecidableEq, Repr

structure ServerSideSession (κ : Type) where
  impl : TcpSessionImpl (SgpMarshaller κ)
  packetSeedExchanger : PacketSeedExchangerForServer := {}
  isSeedExchanged : Bool := false
  history : List SessionRecord := []

namespace ServerSideSession

variable {κ : Type} [PacketCoder κ]

abbrev Result (κ : Type) := Except Exception Bool × ServerSideSession κ

def packetCoder (session : ServerSideSession κ) : κ := session.impl.marshaller.packetCoder

def setPacketCoder (packetCoder : κ) (session : ServerSideSession κ) : ServerSideSession κ :=
  { session with
    impl := { session.impl with marshaller := { session.impl.marshaller with packetCoder } } }

def record (entry : SessionRecord) (session : ServerSideSession κ) : ServerSideSession κ :=
  { session with history := session.history ++ [entry] }

def disconnect (session : ServerSideSession κ) : ServerSideSession κ :=
  { session with impl := session.impl.disconnect }

/-- `MessagingExtension::sendMessage`. -/
def sendMessage (config : ServerSideSessionConfig) (acquired : BlockPointer) (message : CsMessage)
    (session : ServerSideSession κ) : ServerSideSession κ :=
  match config.streamFactory.serialize message with
  | .ok body =>
      let mblock := (session.impl.marshaller.acquireSendBlock acquired.mblock).copyFrom body
      { session with
        impl := session.impl.sendMessage { acquired with mblock } message.messageType }
  | .error _ => session.disconnect

def perform (config : ServerSideSessionConfig) (surroundings : Surroundings)
    (session : ServerSideSession κ) (effect : ExchangeEffect) : ServerSideSession κ :=
  let session := session.record (.exchange effect)
  match effect with
  | .generateCipherSeed _ _ => session
  | .sendMessage message => session.sendMessage config surroundings.acquired message
  | .setEncryptSeed seed => session.setPacketCoder (PacketCoder.setEncryptSeed seed session.packetCoder)
  | .setDecryptSeed seed => session.setPacketCoder (PacketCoder.setDecryptSeed seed session.packetCoder)
  | .extendCipherKeyTimeLimit => session.setPacketCoder
      (PacketCoder.extendCipherKeyTimeLimit surroundings.now session.packetCoder)
  | .seedExchanged => { session with isSeedExchanged := true }

def exchange (config : ServerSideSessionConfig) (surroundings : Surroundings)
    (outcome : PacketSeedExchangerForServer.Outcome) (session : ServerSideSession κ) :
    ServerSideSession κ :=
  outcome.2.foldl (perform config surroundings) { session with packetSeedExchanger := outcome.1 }

def call (session : ServerSideSession κ) : SessionCall → ServerSideSession κ
  | .sendMessage mblock messageType => { session with impl := session.impl.sendMessage mblock messageType }
  | .disconnect => session.disconnect
  | .disconnectGracefully => { session with impl := session.impl.disconnectGracefully }

def applicationHandles (reply : ExtensionReply) (session : ServerSideSession κ) : Result κ :=
  (reply.result, reply.calls.foldl call session)

/-- `MessagingExtension::handleMessage` with the callbacks of the session and of the
exchanger. -/
def messagingHandles (config : ServerSideSessionConfig) (surroundings : Surroundings)
    (messageType : MessageType) (body : List UInt8) (session : ServerSideSession κ) : Result κ :=
  let exchanger := session.packetSeedExchanger
  if messageType = csmtSystemHeartbeat then
    (.ok true, session)
  else if messageType = csmtSystemExchangePublicKey then
    match config.streamFactory.deserialize ExchangePublicKeyMessage.read body with
    | .ok message => (.ok true, session.exchange config surroundings
        (exchanger.onExchangePublicKey surroundings.callback surroundings.clock session.packetCoder message))
    | .error _ => (.ok false, session.disconnect)
  else if messageType = csmtSystemConfirmSeed then
    (.ok true, session.exchange config surroundings exchanger.onConfirmSeed)
  else if messageType ∈ config.messages then
    session.applicationHandles (surroundings.replies .messaging)
  else
    (.ok false, session)

def extensionHandles (config : ServerSideSessionConfig) (surroundings : Surroundings)
    (messageType : MessageType) (body : List UInt8) (extension : SessionExtension)
    (session : ServerSideSession κ) : Result κ :=
  match extension with
  | .messaging => session.messagingHandles config surroundings messageType body
  | .rpcing =>
      if messageType ≠ csmtRpc then (.ok false, session)
      else session.applicationHandles (surroundings.replies .rpcing)
  | .registered id => session.applicationHandles (surroundings.replies (.registered id))

/-- The loop of `SessionImpl::handleMessage`. -/
def handleMessage (config : ServerSideSessionConfig) (surroundings : Surroundings)
    (messageType : MessageType) (body : List UInt8) :
    List SessionExtension → ServerSideSession κ → Result κ
  | [], session => (.ok false, session)
  | extension :: rest, session =>
      let session := session.record (.handed extension messageType body session.isSeedExchanged)
      match session.extensionHandles config surroundings messageType body extension with
      | (.ok false, session) => handleMessage config surroundings messageType body rest session
      | result => result

def onConnected (config : ServerSideSessionConfig) (surroundings : Surroundings)
    (session : ServerSideSession κ) : ServerSideSession κ :=
  let session := { session.record .connected with isSeedExchanged := false }
  session.exchange config surroundings (session.packetSeedExchanger.exchangePublicKey session.packetCoder)

def onMessageArrived (config : ServerSideSessionConfig) (surroundings : Surroundings)
    (messageType : MessageType) (body : List UInt8) (session : ServerSideSession κ) : Result κ :=
  match session.handleMessage config surroundings messageType body config.extensions with
  | (.ok false, session) =>
      if !session.isSeedExchanged then
        (.ok false, session)
      else
        (.ok false, session.exchange config surroundings
          (session.packetSeedExchanger.exchangeNextSeed surroundings.callback surroundings.now
            surroundings.clock session.packetCoder))
  | result => result

def messageUnmarshalled (config : ServerSideSessionConfig) (surroundings : Surroundings)
    (messageType : MessageType) (body : List UInt8) (session : ServerSideSession κ) : Result κ :=
  if session.impl.isDisconnectReserved then
    (.ok true, session)
  else
    session.onMessageArrived config surroundings messageType body

/-- A message is unmarshalled. `unmarshal` fails when it is not handled or when its
handler throws, and `handle_read` disconnects. -/
def messageArrived (config : ServerSideSessionConfig) (surroundings : Surroundings)
    (messageType : MessageType) (body : List UInt8) (session : ServerSideSession κ) :
    ServerSideSession κ :=
  match session.messageUnmarshalled config surroundings messageType body with
  | (.ok true, session) => session
  | (_, session) => session.disconnect

/-- `TcpSessionImpl::sessionOpened`. -/
def sessionOpened (config : ServerSideSessionConfig) (surroundings : Surroundings)
    (session : ServerSideSession κ) : ServerSideSession κ :=
  { session with impl := session.impl.sessionOpened }.onConnected config surroundings

inductive Label where
  | connected (surroundings : Surroundings)
  | messageArrived (surroundings : Surroundings) (messageType : MessageType) (body : List UInt8)
  | transport (label : TcpSessionImpl.Label)

/-- The socket is opened, a message arrives, or the transport makes a step. A read that
has completed is still handled after a disconnect. -/
inductive Step (config : ServerSideSessionConfig) :
    ServerSideSession κ → Label → ServerSideSession κ → Prop where
  | connected {session : ServerSideSession κ} (surroundings : Surroundings) :
      session.impl.isConnected = false →
      Step config session (.connected surroundings) (session.sessionOpened config surroundings)
  | messageArrived (session : ServerSideSession κ) (surroundings : Surroundings)
      (messageType : MessageType) (body : List UInt8) :
      Step config session (.messageArrived surroundings messageType body)
        (session.messageArrived config surroundings messageType body)
  | transport {session : ServerSideSession κ} {label : TcpSessionImpl.Label}
      {impl : TcpSessionImpl (SgpMarshaller κ)} :
      TcpSessionImpl.Step session.impl label impl →
      Step config session (.transport label) { session with impl }

def create (now : TimePoint) (packetCoder : κ) (recvBlock msgBlock : MemoryBlock)
    (maxPendablePacketCount : Nat) : ServerSideSession κ :=
  { impl := TcpSessionImpl.create now (SgpMarshaller.create packetCoder recvBlock msgBlock)
      maxPendablePacketCount }

end ServerSideSession

section Concrete

/-- Byte streams, and the extensions that `SgpSessionImplFactory` registers. -/
def sgpSessionConfig : ServerSideSessionConfig :=
  { streamFactory := { shouldUseUtf8ForString := true, useBitPacking := false }
    extensions := [.messaging, .rpcing]
    messages := []
    hasMessaging := List.mem_cons_self }

def rpcSurroundings : Surroundings :=
  { now := 0
    clock := 0
    callback := { generatePublicAndPrivateKey := some ([1], [2])
                  encryptSeed := fun seed _ => seed
                  decryptSeed := some }
    acquired := { address := 0, mblock := .create 64 }
    replies := fun _ => { calls := [], result := .ok true } }

def teaSession : ServerSideSession (SecurePacketCoder teaSuite CsPacketCoder) :=
  .create 0 (.create .mk 60000 false) (.create 64) (.create 64) 0

end Concrete

end Sne.Server
