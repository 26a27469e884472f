import Sne.Sgp.SeedExchange

/-!
# Agreement on keys

The packets on a channel use the keys that the receiver expects, one after another,
and then the sender is in step. Handlers and receptions keep this as long as the
header can say how long each packet is. The server's exchange does not keep it: its
seed takes effect before the handler of the `ExchangeSeed` message has run, so that
the message is encoded with a key the client does not have.
-/

namespace Sne.Sgp

open Sne.Security Sne.Library.Runs CipherKeyGenerator

set_option autoImplicit false

variable {suite : CipherSuite}

abbrev Keys (suite : CipherSuite) := KeySource suite.random

namespace Endpoint

variable {ξ : Type}

def encryptKeys (endpoint : Endpoint suite ξ) : Keys suite :=
  endpoint.packetCoder.cipherKeyGenerator.encryptSource

def decryptKeys (endpoint : Endpoint suite ξ) : Keys suite :=
  endpoint.packetCoder.cipherKeyGenerator.decryptSource

/-- The body of the next message that is encoded can be announced in 16 bits. -/
def NextFits (endpoint : Endpoint suite ξ) : Prop :=
  endpoint.isConnected = true →
    ∀ outgoing ∈ endpoint.posted.head?, (padded suite.engine.blockSize outgoing.body).length ≤ 65535

instance (endpoint : Endpoint suite ξ) : Decidable endpoint.NextFits :=
  inferInstanceAs (Decidable (_ → _))

end Endpoint

/-- A packet of an allowed message, encoded with this key. -/
def Carries (suite : CipherSuite) (Allowed : MessageType → Prop) (key : Key) (packet : Packet) : Prop :=
  packet.key = key ∧ ∃ messageType body, Allowed messageType ∧ isValidMessage messageType = true ∧
    (padded suite.engine.blockSize body).length ≤ 65535 ∧
    packet.bytes = securePacket suite key messageType body

/-- The receiver's keys, the packets on the way and the sender's keys. -/
def InFlight (Allowed : MessageType → Prop) : Keys suite → List Packet → Keys suite → Prop
  | expected, [], next => expected = next
  | expected, packet :: rest, next =>
      Carries suite Allowed expected.key packet ∧ InFlight Allowed expected.advance rest next

theorem InFlight.send {Allowed : MessageType → Prop} {expected next : Keys suite}
    {packets : List Packet} (inFlight : InFlight Allowed expected packets next) {packet : Packet}
    (carries : Carries suite Allowed next.key packet) :
    InFlight Allowed expected (packets ++ [packet]) next.advance := by
  induction packets generalizing expected with
  | nil =>
      have same : expected = next := inFlight
      rw [same]
      exact ⟨carries, rfl⟩
  | cons first rest induction => exact ⟨inFlight.1, induction inFlight.2⟩

theorem header_of_secure_packet (key : Key) (messageType : MessageType) (body rest : List UInt8)
    (valid : isValidMessage messageType = true) :
    CsPacketHeader.read (securePacket suite key messageType body ++ rest) =
      secureHeader suite messageType body := by
  have headerValid : (secureHeader suite messageType body).isValid = true := by
    rw [CsPacketHeader.is_valid_eq]
    exact valid
  rw [securePacket, List.append_assoc, CsPacketHeader.read_write _ headerValid]

namespace Channel

theorem carry_holding (packets more : List Packet) :
    (holding packets).carry more = holding (packets ++ more) := by
  simp only [holding, carry, List.flatMap_append, List.map_append]

theorem front_packet (lawful : suite.engine.Lawful) {Allowed : MessageType → Prop} {key : Key}
    {packet : Packet} (carries : Carries suite Allowed key packet) (rest : List Packet) :
    (holding (packet :: rest)).messageSize = packet.bytes.length ∧
      (holding (packet :: rest)).bytes.take (holding (packet :: rest)).messageSize = packet.bytes ∧
      (holding (packet :: rest)).advance = holding rest := by
  rcases carries with ⟨_, messageType, body, _, valid, fits, bytes⟩
  have length : packet.bytes.length = secureHeaderSize + (padded suite.engine.blockSize body).length := by
    rw [bytes]
    exact secure_packet_length lawful key messageType body
  have announced : (UInt16.ofNat (padded suite.engine.blockSize body).length).toNat =
      (padded suite.engine.blockSize body).length := by
    rw [UInt16.toNat_ofNat']
    exact Nat.mod_eq_of_lt (Nat.lt_succ_of_le fits)
  have size : (holding (packet :: rest)).messageSize = packet.bytes.length := by
    simp only [messageSize, holding, List.flatMap_cons]
    rw [length, bytes, header_of_secure_packet _ _ _ _ valid, secureHeader, announced]
  have front : (holding (packet :: rest)).bytes = packet.bytes ++ (holding rest).bytes := rfl
  refine ⟨size, ?_, ?_⟩
  · rw [size, front]
    exact List.take_left' rfl
  · rw [advance, size, front, List.drop_left' rfl]
    rfl

end Channel

namespace Endpoint

variable {ξ : Type}

theorem run_handler_in_flight (lawful : suite.engine.Lawful) {Allowed : MessageType → Prop}
    {endpoint : Endpoint suite ξ} {expected : Keys suite} {packets : List Packet}
    (inFlight : InFlight Allowed expected packets endpoint.encryptKeys)
    (allowed : ∀ outgoing ∈ endpoint.posted, Allowed outgoing.messageType) (fits : endpoint.NextFits) :
    InFlight Allowed expected (packets ++ endpoint.runHandler.1) endpoint.runHandler.2.encryptKeys ∧
      endpoint.runHandler.2.decryptKeys = endpoint.decryptKeys ∧
      ∀ outgoing ∈ endpoint.runHandler.2.posted, outgoing ∈ endpoint.posted := by
  unfold runHandler
  cases queue : endpoint.posted with
  | nil =>
      refine ⟨?_, rfl, fun outgoing member => by rwa [queue] at member⟩
      rw [List.append_nil]
      exact inFlight
  | cons outgoing rest =>
      cases connected : endpoint.isConnected with
      | false =>
          simp only [Bool.not_false, if_true, List.append_nil]
          exact ⟨inFlight, rfl, fun other member => List.mem_cons_of_mem _ member⟩
      | true =>
          rcases encode_secures lawful endpoint.packetCoder outgoing.toSendBlock
              { bodySize := PacketCoder.getBodySize endpoint.packetCoder outgoing.mblock
                messageType := outgoing.messageType } outgoing.typeValid with
            ⟨mblock, cipher, encodes, contents⟩
          simp only [encodes, Bool.not_true, Bool.false_eq_true, if_false, if_true]
          refine ⟨?_, ?_, fun other member => List.mem_cons_of_mem _ member⟩
          · have carries : Carries suite Allowed endpoint.encryptKeys.key
                { bytes := mblock.contents, key := endpoint.encryptKeys.key } := by
              refine ⟨rfl, outgoing.messageType, outgoing.body, ?_, outgoing.typeValid, ?_, contents⟩
              · apply allowed
                rw [queue]
                exact List.mem_cons_self
              · apply fits connected
                rw [queue]
                rfl
            simpa only [encryptKeys, get_encrypt_encryptSource] using inFlight.send carries
          · simp only [decryptKeys, get_encrypt_decryptSource]

theorem decode_in_flight (lawful : suite.engine.Lawful) {Allowed : MessageType → Prop}
    {endpoint : Endpoint suite ξ} {packet : Packet} {rest : List Packet} {next : Keys suite}
    (inFlight : InFlight Allowed endpoint.decryptKeys (packet :: rest) next) :
    ∃ messageType body after, endpoint.decode (.holding (packet :: rest)) =
        ({ encodedWith := some packet.key, decodedWith := packet.key, accepted := true },
          some (messageType, body), after) ∧
      Allowed messageType ∧
      messageType = (CsPacketHeader.read (Channel.holding (packet :: rest)).bytes).messageType ∧
      InFlight Allowed after.decryptKeys rest next ∧ after.encryptKeys = endpoint.encryptKeys ∧
      after.posted = endpoint.posted ∧
      after.packetCoder.cipherKeyPeriod = endpoint.packetCoder.cipherKeyPeriod := by
  rcases inFlight with ⟨carries, others⟩
  rcases Channel.front_packet lawful carries rest with ⟨_, front, _⟩
  rcases carries with ⟨sameKey, messageType, body, allowed, valid, _, bytes⟩
  rcases decode_restores lawful endpoint.packetCoder messageType body endpoint.decryptKeys.key rfl with
    ⟨cipher, decodes⟩
  have type : messageType = (CsPacketHeader.read (Channel.holding (packet :: rest)).bytes).messageType := by
    simp only [Channel.holding, List.flatMap_cons]
    rw [bytes, header_of_secure_packet _ _ _ _ valid]
    rfl
  refine ⟨messageType, padded suite.engine.blockSize body, { endpoint with
    packetCoder := { endpoint.packetCoder with
      cipherKeyGenerator := endpoint.packetCoder.cipherKeyGenerator.getDecryptCipherKey.2, cipher } },
    ?_, allowed, type, ?_, ?_, rfl, rfl⟩
  · have oldest : (Channel.holding (packet :: rest)).keys.head? = some endpoint.decryptKeys.key :=
      congrArg some sameKey
    unfold decode
    rw [← type, front, bytes, decodes]
    simp only [if_true, plain_packet_body, oldest, sameKey]
    rfl
  · simpa only [decryptKeys, get_decrypt_decryptSource] using others
  · simp only [encryptKeys, get_decrypt_encryptSource]

end Endpoint

namespace SeedExchange

/-- What can be on the way to the server: a request for an exchange, and messages that have
nothing to do with one. -/
def ServerMayGet (messageType : MessageType) : Prop :=
  messageType = csmtSystemExchangePublicKey ∨ isExchangeMessage messageType = false

def ClientMayGet (messageType : MessageType) : Prop := isExchangeMessage messageType = false

/-- The step does not start an exchange of seeds: the server gets no public key of a client
unless it fails to make its own, and it finds no expired key while no exchange is under way.
A body that is encoded is not too long for its header. -/
def NoExchangeStarts (link : SeedExchange suite) : Label → Prop
  | .serverHandler => link.server.NextFits
  | .clientHandler => link.client.NextFits
  | .serverReceives inputs =>
      (CsPacketHeader.read link.toServer.bytes).messageType = csmtSystemExchangePublicKey →
        link.server.packetCoder.shouldExchangeCipherSeed = true ∧
          inputs.callback.generatePublicAndPrivateKey = none
  | .serverExchangesNextSeed inputs =>
      link.server.packetCoder.isCipherKeyExpired inputs.now = false ∨
        link.server.exchanger.exchangingDecryptSeed ≠ []
  | _ => True

instance (link : SeedExchange suite) : DecidablePred link.NoExchangeStarts
  | .serverHandler => inferInstanceAs (Decidable link.server.NextFits)
  | .clientHandler => inferInstanceAs (Decidable link.client.NextFits)
  | .serverReceives inputs => inferInstanceAs (Decidable
      ((CsPacketHeader.read link.toServer.bytes).messageType = csmtSystemExchangePublicKey →
        link.server.packetCoder.shouldExchangeCipherSeed = true ∧
          inputs.callback.generatePublicAndPrivateKey = none))
  | .serverExchangesNextSeed inputs => inferInstanceAs (Decidable
      (link.server.packetCoder.isCipherKeyExpired inputs.now = false ∨
        link.server.exchanger.exchangingDecryptSeed ≠ []))
  | .serverSends _ | .clientSends _ | .clientReceives _ | .clientExchangesPublicKey _ => isTrue trivial

theorem step_taken (factory : SneStreamFactory) (link : SeedExchange suite) (label : Label) :
    Step factory link label (link.step factory label) :=
  rfl

theorem quiet_step (factory : SneStreamFactory) (link : SeedExchange suite) (label : Label)
    (quiet : link.NoExchangeStarts label) :
    Where (Step factory) NoExchangeStarts link label (link.step factory label) :=
  ⟨step_taken factory link label, quiet⟩

/-- The channel holds whole packets with the keys between the receiver's and the sender's. -/
def InStepOver (Allowed : MessageType → Prop) (expected : Keys suite) (channel : Channel)
    (next : Keys suite) : Prop :=
  ∃ packets, channel = .holding packets ∧ InFlight Allowed expected packets next

theorem InStepOver.sent (lawful : suite.engine.Lawful) {Allowed : MessageType → Prop} {ξ : Type}
    {endpoint : Endpoint suite ξ} {expected : Keys suite} {channel : Channel}
    (inStep : InStepOver Allowed expected channel endpoint.encryptKeys)
    (allowed : ∀ outgoing ∈ endpoint.posted, Allowed outgoing.messageType) (fits : endpoint.NextFits) :
    InStepOver Allowed expected (channel.carry endpoint.runHandler.1) endpoint.runHandler.2.encryptKeys ∧
      endpoint.runHandler.2.decryptKeys = endpoint.decryptKeys ∧
      ∀ outgoing ∈ endpoint.runHandler.2.posted, outgoing ∈ endpoint.posted := by
  rcases inStep with ⟨packets, rfl, inFlight⟩
  rcases Endpoint.run_handler_in_flight lawful inFlight allowed fits with ⟨sends, decryptKeys, posted⟩
  exact ⟨⟨_, Channel.carry_holding packets _, sends⟩, decryptKeys, posted⟩

theorem InStepOver.arrived (lawful : suite.engine.Lawful) {Allowed : MessageType → Prop}
    {expected next : Keys suite} {channel : Channel} (inStep : InStepOver Allowed expected channel next)
    (arrived : channel.isMessageArrived = true) :
    ∃ packet rest, channel = .holding (packet :: rest) ∧
      (Channel.holding (packet :: rest)).advance = .holding rest ∧
      InFlight Allowed expected (packet :: rest) next := by
  rcases inStep with ⟨packets, rfl, inFlight⟩
  cases packets with
  | nil => cases arrived
  | cons packet rest =>
      exact ⟨packet, rest, rfl, (Channel.front_packet lawful inFlight.1 rest).2.2, inFlight⟩

structure Agreement (link : SeedExchange suite) : Prop where
  toClient : InStepOver ClientMayGet link.client.decryptKeys link.toClient link.server.encryptKeys
  toServer : InStepOver ServerMayGet link.server.decryptKeys link.toServer link.client.encryptKeys
  serverPosted : ∀ outgoing ∈ link.server.posted, ClientMayGet outgoing.messageType
  clientPosted : ∀ outgoing ∈ link.client.posted, ServerMayGet outgoing.messageType
  keysAgree : link.KeysAgree

theorem create_agreement (now : TimePoint) (cipherKeyPeriod : Nat) (useDynamicKey : Bool) :
    (create suite now cipherKeyPeriod useDynamicKey).Agreement where
  toClient := ⟨[], rfl, (create_sources _).symm⟩
  toServer := ⟨[], rfl, (create_sources _).symm⟩
  serverPosted := nofun
  clientPosted := nofun
  keysAgree := nofun

theorem keys_agree_next {link : SeedExchange suite} (agree : link.KeysAgree) (key : Key) :
    ∀ reception ∈ link.receptions ++ [Reception.mk (some key) key true],
      reception.encodedWith = some reception.decodedWith ∧ reception.accepted = true := by
  intro reception member
  rcases List.mem_append.mp member with earlier | last
  · exact agree reception earlier
  · rw [List.mem_singleton.mp last]
    exact ⟨rfl, rfl⟩

/-- A server that does not start an exchange keeps its keys and posts nothing. -/
theorem server_handles_quiet (factory : SneStreamFactory) (inputs : ExchangeInputs)
    {messageType : MessageType} (allowed : ServerMayGet messageType) (body : List UInt8)
    (server : Endpoint suite PacketSeedExchangerForServer)
    (quiet : messageType = csmtSystemExchangePublicKey →
      server.packetCoder.shouldExchangeCipherSeed = true ∧
        inputs.callback.generatePublicAndPrivateKey = none) :
    (serverHandles factory inputs messageType body server).encryptKeys = server.encryptKeys ∧
      (serverHandles factory inputs messageType body server).decryptKeys = server.decryptKeys ∧
      (serverHandles factory inputs messageType body server).posted = server.posted := by
  unfold serverHandles
  by_cases request : messageType = csmtSystemExchangePublicKey
  · rcases quiet request with ⟨exchanges, failed⟩
    have should : PacketCoder.shouldExchangeCipherSeed server.packetCoder = true := exchanges
    rw [if_pos request]
    cases factory.deserialize ExchangePublicKeyMessage.read body with
    | error _ => exact ⟨rfl, rfl, rfl⟩
    | ok message =>
        simp only [PacketSeedExchangerForServer.onExchangePublicKey, should, failed]
        exact ⟨rfl, rfl, rfl⟩
  · have unconfirmed : messageType ≠ csmtSystemConfirmSeed := by
      rintro rfl
      rcases allowed with same | none
      · exact request same
      · cases none
    rw [if_neg request, if_neg unconfirmed]
    exact ⟨rfl, rfl, rfl⟩

theorem client_ignores (factory : SneStreamFactory) (inputs : ExchangeInputs)
    {messageType : MessageType} (allowed : ClientMayGet messageType) (body : List UInt8)
    (client : Endpoint suite PacketSeedExchangerForClient) :
    clientHandles factory inputs messageType body client = client := by
  have other : messageType ≠ csmtSystemExchangeSeed := by
    rintro rfl
    cases allowed
  unfold clientHandles
  rw [if_neg other]

theorem server_receives_agreement (lawful : suite.engine.Lawful) (factory : SneStreamFactory)
    (inputs : ExchangeInputs) {link : SeedExchange suite} (agreement : link.Agreement)
    (quiet : link.NoExchangeStarts (.serverReceives inputs)) :
    (link.serverReceives factory inputs).Agreement := by
  unfold serverReceives
  split
  case isTrue arrived =>
    rcases agreement.toServer.arrived lawful (Bool.and_eq_true_iff.mp arrived).2 with
      ⟨packet, rest, channel, advanced, inFlight⟩
    rcases Endpoint.decode_in_flight lawful inFlight with
      ⟨messageType, body, server, decodes, allowed, header, others, encryptKeys, posted, period⟩
    have noStart : messageType = csmtSystemExchangePublicKey →
        server.packetCoder.shouldExchangeCipherSeed = true ∧
          inputs.callback.generatePublicAndPrivateKey = none := by
      intro request
      rw [SecurePacketCoder.shouldExchangeCipherSeed, period]
      apply quiet
      rw [channel, ← header]
      exact request
    rcases server_handles_quiet factory inputs allowed body server noStart with
      ⟨sameEncryptKeys, sameDecryptKeys, samePosted⟩
    rw [channel]
    simp only [decodes]
    constructor
    · rw [sameEncryptKeys, encryptKeys]
      exact agreement.toClient
    · rw [sameDecryptKeys]
      exact ⟨rest, advanced, others⟩
    · rw [samePosted, posted]
      exact agreement.serverPosted
    · exact agreement.clientPosted
    · exact keys_agree_next agreement.keysAgree packet.key
  case isFalse => exact agreement

theorem client_receives_agreement (lawful : suite.engine.Lawful) (factory : SneStreamFactory)
    (inputs : ExchangeInputs) {link : SeedExchange suite} (agreement : link.Agreement) :
    (link.clientReceives factory inputs).Agreement := by
  unfold clientReceives
  split
  case isTrue arrived =>
    rcases agreement.toClient.arrived lawful (Bool.and_eq_true_iff.mp arrived).2 with
      ⟨packet, rest, channel, advanced, inFlight⟩
    rcases Endpoint.decode_in_flight lawful inFlight with
      ⟨messageType, body, client, decodes, allowed, _, others, encryptKeys, posted, _⟩
    rw [channel]
    simp only [decodes, client_ignores factory inputs allowed]
    constructor
    · exact ⟨rest, advanced, others⟩
    · rw [encryptKeys]
      exact agreement.toServer
    · exact agreement.serverPosted
    · rw [posted]
      exact agreement.clientPosted
    · exact keys_agree_next agreement.keysAgree packet.key
  case isFalse => exact agreement

/-- The server extends the time limit of the key, or does nothing. -/
theorem exchange_next_seed_quiet {inputs : ExchangeInputs} {link : SeedExchange suite}
    (quiet : link.NoExchangeStarts (.serverExchangesNextSeed inputs)) :
    (link.server.exchanger.exchangeNextSeed inputs.callback inputs.now inputs.clock
        link.server.packetCoder).2 = [] ∨
      (link.server.exchanger.exchangeNextSeed inputs.callback inputs.now inputs.clock
        link.server.packetCoder).2 = [.extendCipherKeyTimeLimit] := by
  unfold PacketSeedExchangerForServer.exchangeNextSeed
  rcases quiet with fresh | exchanging
  · left
    have expired : PacketCoder.isCipherKeyExpired inputs.now link.server.packetCoder = false := fresh
    rw [expired, Bool.not_false, Bool.or_true, if_pos rfl]
  · split
    · exact .inl rfl
    · right
      have busy : (!link.server.exchanger.exchangingDecryptSeed.isEmpty) = true := by
        simpa using exchanging
      simp only [PacketSeedExchangerForServer.exchangeSeed, if_pos busy, List.nil_append]

theorem exchange_without_seeds (factory : SneStreamFactory) (now : TimePoint) {ξ : Type}
    (endpoint : Endpoint suite ξ) {outcome : ξ × List ExchangeEffect}
    (effects : outcome.2 = [] ∨ outcome.2 = [.extendCipherKeyTimeLimit]) :
    (endpoint.exchange factory now outcome).encryptKeys = endpoint.encryptKeys ∧
      (endpoint.exchange factory now outcome).decryptKeys = endpoint.decryptKeys ∧
      (endpoint.exchange factory now outcome).posted = endpoint.posted := by
  unfold Endpoint.exchange
  rcases effects with none | onlyExtends
  · rw [none]
    exact ⟨rfl, rfl, rfl⟩
  · simp only [onlyExtends, List.foldl_cons, List.foldl_nil, Endpoint.perform, Endpoint.encryptKeys,
      Endpoint.decryptKeys, SecurePacketCoder.extend_cipherKeyGenerator, and_self]

theorem exchange_public_key_quiet (factory : SneStreamFactory) (inputs : ExchangeInputs)
    {link : SeedExchange suite}
    (posted : ∀ outgoing ∈ link.client.posted, ServerMayGet outgoing.messageType) :
    let client := link.client.exchange factory inputs.now
      (link.client.exchanger.exchangePublicKey inputs.callback link.client.packetCoder)
    client.encryptKeys = link.client.encryptKeys ∧ client.decryptKeys = link.client.decryptKeys ∧
      ∀ outgoing ∈ client.posted, ServerMayGet outgoing.messageType := by
  intro client
  change (link.client.exchange factory inputs.now _).encryptKeys = _ ∧
    (link.client.exchange factory inputs.now _).decryptKeys = _ ∧
    ∀ outgoing ∈ (link.client.exchange factory inputs.now _).posted, _
  unfold PacketSeedExchangerForClient.exchangePublicKey
  rw [show PacketCoder.hasPacketCipher link.client.packetCoder = true from rfl, if_neg (by decide)]
  cases inputs.callback.generatePublicAndPrivateKey with
  | none => exact ⟨rfl, rfl, posted⟩
  | some keys =>
      simp only [Endpoint.exchange, List.foldl_cons, List.foldl_nil, Endpoint.perform, Endpoint.sendMessage]
      split
      · refine ⟨rfl, rfl, ?_⟩
        intro outgoing member
        rcases List.mem_append.mp member with earlier | last
        · exact posted outgoing earlier
        · rw [List.mem_singleton.mp last]
          exact .inl rfl
      · exact ⟨rfl, rfl, posted⟩

theorem step_agreement (lawful : suite.engine.Lawful) (factory : SneStreamFactory)
    {link : SeedExchange suite} (agreement : link.Agreement) {label : Label}
    (quiet : link.NoExchangeStarts label) : (link.step factory label).Agreement := by
  cases label with
  | serverSends message =>
      refine ⟨agreement.toClient, agreement.toServer, ?_, agreement.clientPosted, agreement.keysAgree⟩
      intro outgoing member
      rcases List.mem_append.mp member with earlier | last
      · exact agreement.serverPosted outgoing earlier
      · rw [List.mem_singleton.mp last]
        exact message.noExchange
  | clientSends message =>
      refine ⟨agreement.toClient, agreement.toServer, agreement.serverPosted, ?_, agreement.keysAgree⟩
      intro outgoing member
      rcases List.mem_append.mp member with earlier | last
      · exact agreement.clientPosted outgoing earlier
      · rw [List.mem_singleton.mp last]
        exact .inr message.noExchange
  | serverHandler =>
      rcases InStepOver.sent lawful agreement.toClient agreement.serverPosted quiet with
        ⟨inStep, decryptKeys, posted⟩
      refine ⟨inStep, ?_, fun outgoing member => agreement.serverPosted outgoing (posted outgoing member),
        agreement.clientPosted, agreement.keysAgree⟩
      change InStepOver _ link.server.runHandler.2.decryptKeys _ _
      rw [decryptKeys]
      exact agreement.toServer
  | clientHandler =>
      rcases InStepOver.sent lawful agreement.toServer agreement.clientPosted quiet with
        ⟨inStep, decryptKeys, posted⟩
      refine ⟨?_, inStep, agreement.serverPosted,
        fun outgoing member => agreement.clientPosted outgoing (posted outgoing member), agreement.keysAgree⟩
      change InStepOver _ link.client.runHandler.2.decryptKeys _ _
      rw [decryptKeys]
      exact agreement.toClient
  | serverReceives inputs => exact server_receives_agreement lawful factory inputs agreement quiet
  | clientReceives inputs => exact client_receives_agreement lawful factory inputs agreement
  | clientExchangesPublicKey inputs =>
      rcases exchange_public_key_quiet factory inputs agreement.clientPosted with
        ⟨encryptKeys, decryptKeys, posted⟩
      refine ⟨?_, ?_, agreement.serverPosted, posted, agreement.keysAgree⟩
      · exact decryptKeys ▸ agreement.toClient
      · exact encryptKeys ▸ agreement.toServer
  | serverExchangesNextSeed inputs =>
      rcases exchange_without_seeds factory inputs.now link.server (exchange_next_seed_quiet quiet) with
        ⟨encryptKeys, decryptKeys, posted⟩
      refine ⟨?_, ?_, ?_, agreement.clientPosted, agreement.keysAgree⟩
      · exact encryptKeys ▸ agreement.toClient
      · exact decryptKeys ▸ agreement.toServer
      · exact posted ▸ agreement.serverPosted

/-- While no exchange of seeds starts, every packet is decoded with the key that it was
encoded with, and accepted. -/
theorem keys_agree_without_exchange (lawful : suite.engine.Lawful) (factory : SneStreamFactory)
    (now : TimePoint) (cipherKeyPeriod : Nat) (useDynamicKey : Bool) {labels : List Label}
    {last : SeedExchange suite}
    (run : Run (Where (Step factory) NoExchangeStarts) (create suite now cipherKeyPeriod useDynamicKey)
      labels last) : last.KeysAgree := by
  have agreement : last.Agreement := by
    apply run.invariant (fun _ link => link.Agreement)
    · exact create_agreement now cipherKeyPeriod useDynamicKey
    · rintro _ link label _ agreement ⟨rfl, quiet⟩
      exact step_agreement lawful factory agreement quiet
  exact agreement.keysAgree

/-- The next packet of the server is refused when its key has not the fingerprint that the client
expects. -/
theorem mismatched_packet_refused (lawful : suite.engine.Lawful) (factory : SneStreamFactory)
    (inputs : ExchangeInputs) {link : SeedExchange suite}
    (serverConnected : link.server.isConnected = true) (clientConnected : link.client.isConnected = true)
    {outgoing : Outgoing secureHeaderSize} {rest : List (Outgoing secureHeaderSize)}
    (posted : link.server.posted = outgoing :: rest) (fits : link.server.NextFits)
    (toClient : link.toClient = {})
    (differs : getFingerPrint link.client.decryptKeys.key ≠ getFingerPrint link.server.encryptKeys.key) :
    Reception.mk (some link.server.encryptKeys.key) link.client.decryptKeys.key false ∈
      ((link.step factory .serverHandler).step factory (.clientReceives inputs)).receptions := by
  rcases encode_secures lawful link.server.packetCoder outgoing.toSendBlock
      { bodySize := PacketCoder.getBodySize link.server.packetCoder outgoing.mblock
        messageType := outgoing.messageType } outgoing.typeValid with
    ⟨mblock, cipher, encodes, contents⟩
  have sent : link.server.runHandler.1 =
      [{ bytes := mblock.contents, key := link.server.encryptKeys.key }] := by
    simp only [Endpoint.runHandler, posted, serverConnected, encodes, Bool.not_true,
      Bool.false_eq_true, if_false, if_true]
    rfl
  let packet : Packet := { bytes := mblock.contents, key := link.server.encryptKeys.key }
  have channel : (link.step factory .serverHandler).toClient = .holding [packet] := by
    change link.toClient.carry link.server.runHandler.1 = _
    rw [toClient, sent]
    exact Channel.carry_holding [] [packet]
  have carries : Carries suite (fun _ => True) link.server.encryptKeys.key packet := by
    refine ⟨rfl, outgoing.messageType, outgoing.body, trivial, outgoing.typeValid, ?_, contents⟩
    apply fits serverConnected
    rw [posted]
    rfl
  rcases Channel.front_packet lawful carries [] with ⟨size, front, _⟩
  have arrived : (Channel.holding [packet]).isMessageArrived = true := by
    have bytes : (Channel.holding [packet]).bytes = packet.bytes := List.append_nil _
    have headers : secureHeaderSize ≤ packet.bytes.length := by
      rw [← size]
      exact Nat.le_add_right _ _
    simp only [Channel.isMessageArrived, size, bytes, Bool.and_eq_true, decide_eq_true_eq]
    exact ⟨headers, Nat.le_refl _⟩
  have refused := decode_refuses link.client.packetCoder outgoing.messageType outgoing.body _ differs
  have decodes : (link.client.decode (.holding [packet])).1 =
      Reception.mk (some link.server.encryptKeys.key) link.client.decryptKeys.key false := by
    unfold Endpoint.decode
    rw [front, show packet.bytes = _ from contents, apply_ite Prod.fst, ite_self, Reception.mk.injEq]
    exact ⟨rfl, rfl, refused⟩
  have connected : (link.step factory .serverHandler).client.isConnected = true := clientConnected
  change _ ∈ ((link.step factory .serverHandler).clientReceives factory inputs).receptions
  simp only [clientReceives, connected, channel, arrived, Bool.and_self, if_true]
  apply List.mem_append_right
  rw [List.mem_singleton]
  exact decodes.symm

def nextSeedMessage (inputs : ExchangeInputs) (link : SeedExchange suite) : ExchangeSeedMessage :=
  let (seedForEncrypt, seedForDecrypt) := SecurePacketCoder.generateCipherSeed suite inputs.clock
  { publicKey := []
    seedForEncrypt := inputs.callback.encryptSeed seedForEncrypt link.server.exchanger.otherSidePublicKey
    seedForDecrypt := inputs.callback.encryptSeed seedForDecrypt link.server.exchanger.otherSidePublicKey }

theorem exchange_next_seed_starts (inputs : ExchangeInputs) {link : SeedExchange suite}
    (expired : link.server.packetCoder.isCipherKeyExpired inputs.now = true)
    (idle : link.server.exchanger.exchangingDecryptSeed = []) :
    (link.server.exchanger.exchangeNextSeed inputs.callback inputs.now inputs.clock
        link.server.packetCoder).2 =
      [.generateCipherSeed (SecurePacketCoder.generateCipherSeed suite inputs.clock).1
          (SecurePacketCoder.generateCipherSeed suite inputs.clock).2,
        .sendMessage (.exchangeSeed (link.nextSeedMessage inputs)),
        .setEncryptSeed (SecurePacketCoder.generateCipherSeed suite inputs.clock).1,
        .extendCipherKeyTimeLimit] := by
  have should : PacketCoder.shouldExchangeCipherSeed link.server.packetCoder = true :=
    (Bool.and_eq_true_iff.mp expired).1
  have isExpired : PacketCoder.isCipherKeyExpired inputs.now link.server.packetCoder = true := expired
  simp only [PacketSeedExchangerForServer.exchangeNextSeed, should, isExpired,
    PacketSeedExchangerForServer.exchangeSeed, idle]
  rfl

/-- An expired key leads there: the server posts its message and changes the key before the
handler of the message runs. -/
theorem exchange_next_seed_refused (lawful : suite.engine.Lawful) (factory : SneStreamFactory)
    (inputs : ExchangeInputs) {link : SeedExchange suite} (agreement : link.Agreement)
    (serverConnected : link.server.isConnected = true) (clientConnected : link.client.isConnected = true)
    (posted : link.server.posted = []) (toClient : link.toClient = {})
    (expired : link.server.packetCoder.isCipherKeyExpired inputs.now = true)
    (idle : link.server.exchanger.exchangingDecryptSeed = []) {body : List UInt8}
    (serializes : factory.serialize (.exchangeSeed (link.nextSeedMessage inputs)) = .ok body)
    (short : (padded suite.engine.blockSize body).length ≤ 65535)
    (differs : getFingerPrint link.server.encryptKeys.key ≠
      getFingerPrint (link.step factory (.serverExchangesNextSeed inputs)).server.encryptKeys.key) :
    ¬(((link.step factory (.serverExchangesNextSeed inputs)).step factory .serverHandler).step factory
      (.clientReceives inputs)).KeysAgree := by
  have sameKeys : link.client.decryptKeys = link.server.encryptKeys := by
    rcases agreement.toClient with ⟨packets, channel, inFlight⟩
    cases packets with
    | nil => exact inFlight
    | cons packet rest =>
        rw [toClient] at channel
        cases congrArg Channel.keys channel
  let next := link.step factory (.serverExchangesNextSeed inputs)
  have server : next.server = link.server.exchange factory inputs.now
      (link.server.exchanger.exchangeNextSeed inputs.callback inputs.now inputs.clock
        link.server.packetCoder) := rfl
  simp only [Endpoint.exchange, exchange_next_seed_starts inputs expired idle, List.foldl_cons,
    List.foldl_nil, Endpoint.perform, Endpoint.sendMessage, serializes, Endpoint.post, posted,
    List.nil_append] at server
  have connected : next.server.isConnected = true := by
    rw [server]
    exact serverConnected
  have other : getFingerPrint next.client.decryptKeys.key ≠ getFingerPrint next.server.encryptKeys.key := by
    rw [← sameKeys] at differs
    exact differs
  have queue := congrArg Endpoint.posted server
  have fits : next.server.NextFits := by
    rintro _ outgoing oldest
    rw [queue] at oldest
    cases oldest
    rw [system_block_body]
    exact short
  have refused := mismatched_packet_refused lawful factory inputs connected clientConnected queue fits
    toClient other
  intro agree
  cases (agree _ refused).2

section Concrete

def byteStreams : SneStreamFactory := { shouldUseUtf8ForString := true, useBitPacking := false }

def exchangeInputs : ExchangeInputs :=
  { now := 0
    clock := 7
    callback := { generatePublicAndPrivateKey := some ([1], [2])
                  encryptSeed := fun seed _ => seed
                  decryptSeed := some } }

def keylessInputs : ExchangeInputs :=
  { exchangeInputs with
    callback := { exchangeInputs.callback with generatePublicAndPrivateKey := none } }

def helloMessage : ApplicationMessage :=
  { toSendBlock := systemBlock teaSuite [104, 101, 108, 108, 111]
    messageType := csmtRpc
    typeValid := rpc_message_valid
    noExchange := by decide }

theorem keys_agree_without_exchange_both_sides :
    ∃ last, Run (Where (Step byteStreams) NoExchangeStarts) (create teaSuite 0 60000 false)
        [.clientSends helloMessage, .clientHandler, .serverReceives exchangeInputs,
          .clientExchangesPublicKey exchangeInputs, .clientHandler, .serverReceives keylessInputs,
          .serverSends helloMessage, .serverHandler, .clientReceives exchangeInputs] last ∧
      last.receptions.length = 3 ∧ last.KeysAgree := by
  have opens : Run (Where (Step byteStreams) NoExchangeStarts) (create teaSuite 0 60000 false) [] _ :=
    .start _
  have clientSends := (opens.next (quiet_step _ _ (.clientSends helloMessage) trivial)).next
    (quiet_step _ _ .clientHandler (by decide +kernel))
  have arrives := clientSends.next (quiet_step _ _ (.serverReceives exchangeInputs) (by decide +kernel))
  have requests := (arrives.next
    (quiet_step _ _ (.clientExchangesPublicKey exchangeInputs) trivial)).next
    (quiet_step _ _ .clientHandler (by decide +kernel))
  have unanswered := requests.next (quiet_step _ _ (.serverReceives keylessInputs) (by decide +kernel))
  have serverSends := (unanswered.next (quiet_step _ _ (.serverSends helloMessage) trivial)).next
    (quiet_step _ _ .serverHandler (by decide +kernel))
  have last := serverSends.next (quiet_step _ _ (.clientReceives exchangeInputs) trivial)
  exact ⟨_, last, by decide +kernel,
    keys_agree_without_exchange tea_suite_lawful byteStreams 0 60000 false last⟩

/-- The packet of the first `ExchangeSeed` message is encoded with the new key, and the client
refuses it. -/
theorem exchange_seed_packet_refused :
    (∀ seed publicKey, exchangeInputs.callback.decryptSeed
        (exchangeInputs.callback.encryptSeed seed publicKey) = some seed) ∧
      teaSuite.engine.Lawful ∧
      ∃ last, Run (Step byteStreams) (create teaSuite 0 60000 false)
          [.clientExchangesPublicKey exchangeInputs, .clientHandler, .serverReceives exchangeInputs,
            .serverHandler, .clientReceives exchangeInputs] last ∧
        ¬last.KeysAgree := by
  have opens : Run (Step byteStreams) (create teaSuite 0 60000 false) [] _ := .start _
  have requests := (opens.next (step_taken _ _ (.clientExchangesPublicKey exchangeInputs))).next
    (step_taken _ _ .clientHandler)
  have answers := (requests.next (step_taken _ _ (.serverReceives exchangeInputs))).next
    (step_taken _ _ .serverHandler)
  have last := answers.next (step_taken _ _ (.clientReceives exchangeInputs))
  refine ⟨fun _ _ => rfl, tea_suite_lawful, _, last, ?_⟩
  intro agree
  have refused := agree ⟨some 572184555, 537920257, false⟩ (by decide +kernel)
  cases refused.2

end Concrete

end SeedExchange

end Sne.Sgp
