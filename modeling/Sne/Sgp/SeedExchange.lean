import Sne.Library.Runs
import Sne.Sgp.PacketSeedExchanger
import Sne.Sgp.SecureRoundTrip

/-!
# Two sides that exchange seeds

A server and a client, each with its secure coder, its exchanger and the handlers
that it has posted, and a channel of bytes in each direction. `sendMessage` only
posts a handler, and the handler encodes. A seed takes effect at once. A receiver
takes as many bytes as the header in front of them announces. A channel remembers the
keys that its packets were encoded with, oldest first, so that each reception can be
compared with the packet it is about; the coders do not look at those keys.
-/

namespace Sne.Sgp

open Sne.Base Sne.Security Sne.Library.Runs

set_option autoImplicit false

structure Packet where
  bytes : List UInt8
  key : Key

structure Channel where
  bytes : List UInt8 := []
  keys : List Key := []

/-- The keys that a packet was encoded and decoded with, and what `decode` returned. No packet
may be left whose bytes the receiver decodes: then it was not encoded with any key. -/
structure Reception where
  encodedWith : Option Key
  decodedWith : Key
  accepted : Bool
  deriving DecidableEq, Repr

namespace Channel

def holding (packets : List Packet) : Channel :=
  { bytes := packets.flatMap Packet.bytes, keys := packets.map Packet.key }

def carry (packets : List Packet) (channel : Channel) : Channel :=
  { bytes := channel.bytes ++ (holding packets).bytes, keys := channel.keys ++ (holding packets).keys }

def messageSize (channel : Channel) : Nat :=
  secureHeaderSize + (CsPacketHeader.read channel.bytes).bodySize.toNat

/-- `isPacketHeaderArrived` and `isMessageArrived`. A header that was read is valid. -/
def isMessageArrived (channel : Channel) : Bool :=
  channel.bytes.length ≥ secureHeaderSize && channel.bytes.length ≥ channel.messageSize

/-- The bytes of the message are taken from the receive buffer. -/
def advance (channel : Channel) : Channel :=
  { bytes := channel.bytes.drop channel.messageSize, keys := channel.keys.tail }

end Channel

def defaultPacketSize : Nat := 2 * 1024

theorem default_packet_roomy (headerSize : Nat) (small : headerSize ≤ defaultPacketSize) :
    headerSize ≤ (MemoryBlock.create defaultPacketSize).capacity := by
  simpa [MemoryBlock.create, MemoryBlock.capacity, MemoryBlock.size] using small

/-- `acquireSendBlock` and the body behind the header. -/
def systemBlock (suite : CipherSuite) (body : List UInt8) : SendBlock secureHeaderSize :=
  let marshaller := SgpMarshaller.create
    (SecurePacketCoder.create {} 0 false : SecurePacketCoder suite CsPacketCoder)
    (.create defaultPacketSize) (.create defaultPacketSize)
  marshaller.sendBlock (.create defaultPacketSize) (default_packet_roomy secureHeaderSize (by decide)) body

theorem system_block_body (suite : CipherSuite) (body : List UInt8) :
    (systemBlock suite body).body = body :=
  SgpMarshaller.send_block_body
    (SgpMarshaller.create (SecurePacketCoder.create {} 0 false : SecurePacketCoder suite CsPacketCoder)
      (.create defaultPacketSize) (.create defaultPacketSize))
    (.create defaultPacketSize) (default_packet_roomy secureHeaderSize (by decide)) body

structure Endpoint (suite : CipherSuite) (ξ : Type) where
  packetCoder : SecurePacketCoder suite CsPacketCoder
  exchanger : ξ
  posted : List (Outgoing secureHeaderSize) := []
  isSeedExchanged : Bool := false
  isConnected : Bool := true

namespace Endpoint

variable {suite : CipherSuite} {ξ : Type}

def disconnect (endpoint : Endpoint suite ξ) : Endpoint suite ξ := { endpoint with isConnected := false }

def post (outgoing : Outgoing secureHeaderSize) (endpoint : Endpoint suite ξ) : Endpoint suite ξ :=
  { endpoint with posted := endpoint.posted ++ [outgoing] }

/-- `MessagingExtension::sendMessage`. -/
def sendMessage (factory : SneStreamFactory) (message : CsMessage) (endpoint : Endpoint suite ξ) :
    Endpoint suite ξ :=
  match factory.serialize message with
  | .ok body => endpoint.post
      { toSendBlock := systemBlock suite body
        messageType := message.messageType
        typeValid := message.message_type_valid }
  | .error _ => endpoint.disconnect

def perform (factory : SneStreamFactory) (now : TimePoint) (endpoint : Endpoint suite ξ) :
    ExchangeEffect → Endpoint suite ξ
  | .generateCipherSeed _ _ => endpoint
  | .sendMessage message => endpoint.sendMessage factory message
  | .setEncryptSeed seed => { endpoint with packetCoder := endpoint.packetCoder.setEncryptSeed seed }
  | .setDecryptSeed seed => { endpoint with packetCoder := endpoint.packetCoder.setDecryptSeed seed }
  | .extendCipherKeyTimeLimit =>
      { endpoint with packetCoder := endpoint.packetCoder.extendCipherKeyTimeLimit now }
  | .seedExchanged => { endpoint with isSeedExchanged := true }

def exchange (factory : SneStreamFactory) (now : TimePoint) (outcome : ξ × List ExchangeEffect)
    (endpoint : Endpoint suite ξ) : Endpoint suite ξ :=
  outcome.2.foldl (perform factory now) { endpoint with exchanger := outcome.1 }

/-- The oldest handler that `sendMessage` posted: the packets it sends and the side after it. -/
def runHandler (endpoint : Endpoint suite ξ) : List Packet × Endpoint suite ξ :=
  match endpoint.posted with
  | [] => ([], endpoint)
  | outgoing :: rest =>
      let endpoint := { endpoint with posted := rest }
      if !endpoint.isConnected then
        ([], endpoint)
      else
        let encoded := endpoint.packetCoder.encode outgoing.mblock
          { bodySize := PacketCoder.getBodySize endpoint.packetCoder outgoing.mblock
            messageType := outgoing.messageType }
        let key := endpoint.packetCoder.cipherKeyGenerator.encryptSource.key
        let endpoint := { endpoint with packetCoder := encoded.coder }
        if encoded.succeeded then
          ([{ bytes := encoded.mblock.contents, key }], endpoint)
        else
          ([], endpoint.disconnect)

/-- `parseMessage` of the bytes in front. A session whose packet is not accepted disconnects. -/
def decode (channel : Channel) (endpoint : Endpoint suite ξ) :
    Reception × Option (MessageType × List UInt8) × Endpoint suite ξ :=
  let decoded := endpoint.packetCoder.decode (packetBlock (channel.bytes.take channel.messageSize))
  let reception : Reception :=
    { encodedWith := channel.keys.head?
      decodedWith := endpoint.packetCoder.cipherKeyGenerator.decryptSource.key
      accepted := decoded.succeeded }
  let endpoint := { endpoint with packetCoder := decoded.coder }
  if decoded.succeeded then
    (reception, some ((CsPacketHeader.read channel.bytes).messageType,
      (PacketCoder.advanceToBody decoded.coder decoded.mblock).contents), endpoint)
  else
    (reception, none, endpoint.disconnect)

end Endpoint

/-- What a step takes from outside: the clocks and the RSA functions. -/
structure ExchangeInputs where
  now : TimePoint
  clock : UInt32
  callback : PacketSeedExchangerCallback

def isExchangeMessage (messageType : MessageType) : Bool :=
  messageType = csmtSystemExchangeSeed || messageType = csmtSystemExchangePublicKey ||
    messageType = csmtSystemConfirmSeed

structure ApplicationMessage extends Outgoing secureHeaderSize where
  noExchange : isExchangeMessage messageType = false

structure SeedExchange (suite : CipherSuite) where
  server : Endpoint suite PacketSeedExchangerForServer
  client : Endpoint suite PacketSeedExchangerForClient
  toServer : Channel := {}
  toClient : Channel := {}
  receptions : List Reception := []

namespace SeedExchange

variable {suite : CipherSuite}

inductive Label where
  | serverSends (message : ApplicationMessage)
  | clientSends (message : ApplicationMessage)
  | serverHandler
  | clientHandler
  | serverReceives (inputs : ExchangeInputs)
  | clientReceives (inputs : ExchangeInputs)
  | clientExchangesPublicKey (inputs : ExchangeInputs)
  | serverExchangesNextSeed (inputs : ExchangeInputs)

def serverHandles (factory : SneStreamFactory) (inputs : ExchangeInputs) (messageType : MessageType)
    (body : List UInt8) (server : Endpoint suite PacketSeedExchangerForServer) :
    Endpoint suite PacketSeedExchangerForServer :=
  if messageType = csmtSystemExchangePublicKey then
    match factory.deserialize ExchangePublicKeyMessage.read body with
    | .ok message => server.exchange factory inputs.now (server.exchanger.onExchangePublicKey
        inputs.callback inputs.clock server.packetCoder message)
    | .error _ => server.disconnect
  else if messageType = csmtSystemConfirmSeed then
    server.exchange factory inputs.now server.exchanger.onConfirmSeed
  else
    server

def clientHandles (factory : SneStreamFactory) (inputs : ExchangeInputs) (messageType : MessageType)
    (body : List UInt8) (client : Endpoint suite PacketSeedExchangerForClient) :
    Endpoint suite PacketSeedExchangerForClient :=
  if messageType = csmtSystemExchangeSeed then
    match factory.deserialize ExchangeSeedMessage.read body with
    | .ok message => client.exchange factory inputs.now
        (client.exchanger.onExchangeSeed inputs.callback message)
    | .error _ => client.disconnect
  else
    client

def serverReceives (factory : SneStreamFactory) (inputs : ExchangeInputs) (link : SeedExchange suite) :
    SeedExchange suite :=
  if link.server.isConnected && link.toServer.isMessageArrived then
    let (reception, message, server) := link.server.decode link.toServer
    { link with
      toServer := link.toServer.advance
      receptions := link.receptions ++ [reception]
      server := match message with
        | some (messageType, body) => serverHandles factory inputs messageType body server
        | none => server }
  else
    link

def clientReceives (factory : SneStreamFactory) (inputs : ExchangeInputs) (link : SeedExchange suite) :
    SeedExchange suite :=
  if link.client.isConnected && link.toClient.isMessageArrived then
    let (reception, message, client) := link.client.decode link.toClient
    { link with
      toClient := link.toClient.advance
      receptions := link.receptions ++ [reception]
      client := match message with
        | some (messageType, body) => clientHandles factory inputs messageType body client
        | none => client }
  else
    link

def step (factory : SneStreamFactory) (link : SeedExchange suite) : Label → SeedExchange suite
  | .serverSends message => { link with server := link.server.post message.toOutgoing }
  | .clientSends message => { link with client := link.client.post message.toOutgoing }
  | .serverHandler =>
      let (packets, server) := link.server.runHandler
      { link with server, toClient := link.toClient.carry packets }
  | .clientHandler =>
      let (packets, client) := link.client.runHandler
      { link with client, toServer := link.toServer.carry packets }
  | .serverReceives inputs => link.serverReceives factory inputs
  | .clientReceives inputs => link.clientReceives factory inputs
  | .clientExchangesPublicKey inputs =>
      let outcome := link.client.exchanger.exchangePublicKey inputs.callback link.client.packetCoder
      { link with client := link.client.exchange factory inputs.now outcome }
  | .serverExchangesNextSeed inputs =>
      let outcome := link.server.exchanger.exchangeNextSeed inputs.callback inputs.now inputs.clock
        link.server.packetCoder
      { link with server := link.server.exchange factory inputs.now outcome }

def Step (factory : SneStreamFactory) (link : SeedExchange suite) (label : Label)
    (next : SeedExchange suite) : Prop :=
  next = link.step factory label

def create (suite : CipherSuite) (now : TimePoint) (cipherKeyPeriod : Nat) (useDynamicKey : Bool) :
    SeedExchange suite :=
  let packetCoder := SecurePacketCoder.reset now (.create {} cipherKeyPeriod useDynamicKey)
  { server := { packetCoder, exchanger := {} }
    client := { packetCoder, exchanger := {} } }

/-- Every packet was decoded with the key it was encoded with, and accepted. -/
def KeysAgree (link : SeedExchange suite) : Prop :=
  ∀ reception ∈ link.receptions,
    reception.encodedWith = some reception.decodedWith ∧ reception.accepted = true

end SeedExchange

end Sne.Sgp
