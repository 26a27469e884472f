import Sne.Library.Runs
import Sne.Server.SeedState

/-!
# Confirmed seeds

`onConfirmSeed` installs whatever `exchangingDecryptSeed_` holds, also when no
exchange is under way on the connection. The records of a session show whether one
was: seeds were generated and an `ExchangeSeed` message was sent after the last
connect, and `seedExchanged` has not been called since.
-/

namespace Sne.Server

open Sne.Session Sne.Sgp Sne.Library.Runs

set_option autoImplicit false

/-- An exchange with this decrypt seed was started on this connection and is not confirmed. -/
def ExchangeOpen (history : List SessionRecord) (decryptSeed : Seed) : Prop :=
  ∃ earlier encryptSeed message since,
    history = earlier ++ .exchange (.generateCipherSeed encryptSeed decryptSeed) ::
      .exchange (.sendMessage (.exchangeSeed message)) :: since ∧
    .connected ∉ since ∧ .exchange .seedExchanged ∉ since

/-- A decrypt seed is installed, and the seeds are exchanged, only for an open exchange. -/
def Justified (before : List SessionRecord) : SessionRecord → Prop
  | .exchange (.setDecryptSeed seed) => ExchangeOpen before seed
  | .exchange .seedExchanged => ∃ seed, ExchangeOpen before seed
  | _ => True

def SessionRecord.isPassing : SessionRecord → Bool
  | .handed _ _ _ _ => true
  | .exchange (.generateCipherSeed _ _) => true
  | .exchange (.setEncryptSeed _) => true
  | .exchange .extendCipherKeyTimeLimit => true
  | _ => false

theorem exchange_open_concat {history : List SessionRecord} {entry : SessionRecord} {seed : Seed}
    (opened : ExchangeOpen history seed) (connects : entry ≠ .connected)
    (confirms : entry ≠ .exchange .seedExchanged) : ExchangeOpen (history ++ [entry]) seed := by
  rcases opened with ⟨earlier, encryptSeed, message, since, rfl, sameConnection, unconfirmed⟩
  refine ⟨earlier, encryptSeed, message, since ++ [entry], by simp, ?_, ?_⟩
  · simpa [sameConnection] using connects.symm
  · simpa [unconfirmed] using confirms.symm

/-- The last record is the message that started the exchange, or came after it. -/
theorem exchange_open_of_concat {history : List SessionRecord} {entry : SessionRecord} {seed : Seed}
    (opened : ExchangeOpen (history ++ [entry]) seed)
    (other : ∀ message, entry ≠ .exchange (.sendMessage (.exchangeSeed message))) :
    ExchangeOpen history seed ∧ entry ≠ .connected ∧ entry ≠ .exchange .seedExchanged := by
  rcases opened with ⟨earlier, encryptSeed, message, since, split, sameConnection, unconfirmed⟩
  rcases List.eq_nil_or_concat since with rfl | ⟨others, last, rfl⟩
  · have last : history ++ [entry] =
        earlier ++ [.exchange (.generateCipherSeed encryptSeed seed)] ++
          [.exchange (.sendMessage (.exchangeSeed message))] := by
      simpa using split
    rcases List.append_inj' last rfl with ⟨_, same⟩
    cases same
    exact absurd rfl (other message)
  · rw [List.concat_eq_append] at split sameConnection unconfirmed
    rw [← List.cons_append, ← List.cons_append, ← List.append_assoc] at split
    rcases List.append_inj' split rfl with ⟨same, lastSame⟩
    cases lastSame
    simp only [List.mem_append, List.mem_singleton, not_or] at sameConnection unconfirmed
    exact ⟨⟨earlier, encryptSeed, message, others, same, sameConnection.1, unconfirmed.1⟩,
      Ne.symm sameConnection.2, Ne.symm unconfirmed.2⟩

theorem passing_append {records : List SessionRecord}
    (passing : ∀ entry ∈ records, entry.isPassing = true)
    (history : List SessionRecord) :
    (Throughout Justified (history ++ records) ↔ Throughout Justified history) ∧
      ∀ seed, ExchangeOpen (history ++ records) seed ↔ ExchangeOpen history seed := by
  induction records generalizing history with
  | nil => simp
  | cons entry rest induction =>
      have first : entry.isPassing = true := passing entry (by simp)
      have rest := induction (fun other member => passing other (by simp [member])) (history ++ [entry])
      rw [List.append_assoc, List.singleton_append] at rest
      have fits : Justified history entry := by
        cases entry with
        | exchange effect =>
            cases effect with
            | setDecryptSeed seed => cases first
            | seedExchanged => cases first
            | _ => trivial
        | _ => trivial
      constructor
      · rw [rest.1, throughout_concat]
        exact and_iff_left fits
      · intro seed
        rw [rest.2 seed]
        constructor
        · intro opened
          apply (exchange_open_of_concat opened _).1
          rintro message rfl
          cases first
        · intro opened
          apply exchange_open_concat opened
          · rintro rfl
            cases first
          · rintro rfl
            cases first

theorem started_append (history : List SessionRecord) (encryptSeed decryptSeed : Seed)
    (message : ExchangeSeedMessage) {rest : List SessionRecord}
    (passing : ∀ entry ∈ rest, entry.isPassing = true) :
    let started := history ++ .exchange (.generateCipherSeed encryptSeed decryptSeed) ::
      .exchange (.sendMessage (.exchangeSeed message)) :: rest
    (Throughout Justified started ↔ Throughout Justified history) ∧ ExchangeOpen started decryptSeed := by
  intro started
  constructor
  · have split : started = history ++ [.exchange (.generateCipherSeed encryptSeed decryptSeed)] ++
        [.exchange (.sendMessage (.exchangeSeed message))] ++ rest := by
      simp [started]
    rw [split, (passing_append passing _).1, throughout_concat, throughout_concat]
    simp [Justified]
  · refine ⟨history, encryptSeed, message, rest, rfl, ?_, ?_⟩
    · intro member
      cases passing _ member
    · intro member
      cases passing _ member

section Exchangers

variable {κ : Type} [PacketCoder κ]

def Continues (exchanger : PacketSeedExchangerForServer)
    (outcome : PacketSeedExchangerForServer.Outcome) :
    Prop :=
  (outcome.1.exchangingDecryptSeed = exchanger.exchangingDecryptSeed ∧
    ∀ entry ∈ outcome.2.map SessionRecord.exchange, entry.isPassing = true) ∨
  ∃ encryptSeed message rest,
    outcome.2 = .generateCipherSeed encryptSeed outcome.1.exchangingDecryptSeed ::
      .sendMessage (.exchangeSeed message) :: rest ∧
    ∀ entry ∈ rest.map SessionRecord.exchange, entry.isPassing = true

theorem exchange_seed_starts (callback : PacketSeedExchangerCallback) (clock : UInt32) (coder : κ)
    (publicKey : List UInt8) (exchanger : PacketSeedExchangerForServer)
    (idle : exchanger.exchangingDecryptSeed = []) :
    ∃ encryptSeed message,
      (exchanger.exchangeSeed callback clock coder publicKey).2 =
        [.generateCipherSeed encryptSeed
          (exchanger.exchangeSeed callback clock coder publicKey).1.exchangingDecryptSeed,
          .sendMessage (.exchangeSeed message), .setEncryptSeed encryptSeed] := by
  unfold PacketSeedExchangerForServer.exchangeSeed
  rw [idle]
  exact ⟨_, _, rfl⟩

theorem exchange_next_seed_continues (callback : PacketSeedExchangerCallback) (now : TimePoint)
    (clock : UInt32) (coder : κ) (exchanger : PacketSeedExchangerForServer) :
    Continues exchanger (exchanger.exchangeNextSeed callback now clock coder) := by
  unfold PacketSeedExchangerForServer.exchangeNextSeed
  split
  · exact .inl ⟨rfl, by simp⟩
  · cases exchanging : exchanger.exchangingDecryptSeed with
    | nil =>
        rcases exchange_seed_starts callback clock coder [] exchanger exchanging with
          ⟨encryptSeed, message, effects⟩
        refine .inr ⟨encryptSeed, message, [.setEncryptSeed encryptSeed, .extendCipherKeyTimeLimit], ?_, ?_⟩
        · simp only [effects]
          rfl
        · simp [SessionRecord.isPassing]
    | cons first others =>
        left
        simp [PacketSeedExchangerForServer.exchangeSeed, exchanging, SessionRecord.isPassing]

theorem on_exchange_public_key_continues (callback : PacketSeedExchangerCallback) (clock : UInt32)
    (coder : κ) (message : ExchangePublicKeyMessage) (exchanger : PacketSeedExchangerForServer)
    (exchanging : PacketCoder.shouldExchangeCipherSeed coder = true) :
    Continues exchanger (exchanger.onExchangePublicKey callback clock coder message) := by
  unfold PacketSeedExchangerForServer.onExchangePublicKey
  rw [exchanging, if_neg (by decide)]
  cases callback.generatePublicAndPrivateKey with
  | none => exact .inl ⟨rfl, by simp⟩
  | some keys =>
      rcases keys with ⟨myPublicKey, privateKey⟩
      simp only [PacketSeedExchangerForServer.exchangeFirstSeed, exchanging, Bool.not_true,
        Bool.false_eq_true, if_false]
      rcases exchange_seed_starts callback clock coder myPublicKey
          { exchanger with otherSidePublicKey := message.publicKey, privateKey, exchangingDecryptSeed := [] }
          rfl with ⟨encryptSeed, seedMessage, effects⟩
      exact .inr ⟨encryptSeed, seedMessage, [.setEncryptSeed encryptSeed], effects,
        by simp [SessionRecord.isPassing]⟩

end Exchangers

namespace SeedState

variable {κ : Type} [PacketCoder κ]

/-- While an exchange is open, its decrypt seed is the one that waits to be installed. -/
def Coherent (state : SeedState κ) : Prop :=
  ∀ seed, ExchangeOpen state.history seed →
    ExchangeOpen state.history state.packetSeedExchanger.exchangingDecryptSeed

omit [PacketCoder κ] in
theorem Coherent.append {state : SeedState κ} (coherent : state.Coherent)
    {records : List SessionRecord} (passing : ∀ entry ∈ records, entry.isPassing = true) :
    (state.append records).Coherent := by
  have same := (passing_append passing state.history).2
  intro seed opened
  exact (same _).mpr (coherent seed ((same seed).mp opened))

theorem exchange_continues {state : SeedState κ} {outcome : PacketSeedExchangerForServer.Outcome}
    (continues : Continues state.packetSeedExchanger outcome) (now : TimePoint) :
    (Throughout Justified (state.exchange now outcome).history ↔ Throughout Justified state.history) ∧
      (state.Coherent → (state.exchange now outcome).Coherent) := by
  rcases state.exchange_exchanger now outcome with ⟨exchanger, history⟩
  unfold Coherent
  rw [exchanger, history]
  rcases continues with ⟨same, passing⟩ | ⟨encryptSeed, message, rest, effects, passing⟩
  · rcases passing_append passing state.history with ⟨justified, opened⟩
    refine ⟨justified, ?_⟩
    intro coherent seed openNow
    rw [same, opened]
    exact coherent seed ((opened seed).mp openNow)
  · rw [effects]
    rcases started_append state.history encryptSeed outcome.1.exchangingDecryptSeed message passing with
      ⟨justified, opened⟩
    exact ⟨justified, fun _ _ _ => opened⟩

theorem confirm_justified {state : SeedState κ} (coherent : state.Coherent) (now : TimePoint) :
    let after := state.exchange now state.packetSeedExchanger.onConfirmSeed
    (Throughout Justified after.history ↔
      Throughout Justified state.history ∧ ∃ seed, ExchangeOpen state.history seed) ∧
    after.Coherent := by
  intro after
  rcases state.exchange_exchanger now state.packetSeedExchanger.onConfirmSeed with ⟨_, history⟩
  let seed := state.packetSeedExchanger.exchangingDecryptSeed
  have split : after.history = state.history ++ [.exchange (.setDecryptSeed seed)] ++
      [.exchange .seedExchanged] := by
    rw [history]
    simp [PacketSeedExchangerForServer.onConfirmSeed, seed]
  constructor
  · rw [split, throughout_concat, throughout_concat, and_assoc]
    apply and_congr_right'
    constructor
    · rintro ⟨opened, _⟩
      exact ⟨seed, opened⟩
    · rintro ⟨other, opened⟩
      have current : ExchangeOpen state.history seed := coherent other opened
      exact ⟨current, seed, exchange_open_concat current nofun nofun⟩
  · intro other opened
    rw [split] at opened
    exact absurd rfl (exchange_open_of_concat opened nofun).2.2

end SeedState

section SecureSessions

variable {suite : CipherSuite} {κ : Type} [PacketCoder κ]

theorem encode_period (mblock : Base.MemoryBlock) (header : CsPacketHeader)
    (coder : SecurePacketCoder suite κ) :
    (coder.encode mblock header).coder.cipherKeyPeriod = coder.cipherKeyPeriod := by
  unfold SecurePacketCoder.encode
  dsimp only
  split
  · rfl
  · split
    · rfl
    · split <;> rfl

theorem marshal_period (mblock : Base.MemoryBlock) (messageType : MessageType)
    (marshaller : SgpMarshaller (SecurePacketCoder suite κ)) :
    (marshaller.marshal mblock messageType).marshaller.packetCoder.cipherKeyPeriod =
      marshaller.packetCoder.cipherKeyPeriod := by
  unfold SgpMarshaller.marshal
  split
  · exact encode_period mblock _ marshaller.packetCoder
  · rfl

theorem perform_period (now : TimePoint) (state : SeedState (SecurePacketCoder suite κ))
    (effect : ExchangeEffect) :
    (state.perform now effect).packetCoder.cipherKeyPeriod = state.packetCoder.cipherKeyPeriod := by
  cases effect with
  | extendCipherKeyTimeLimit =>
      exact SecurePacketCoder.extend_cipherKeyPeriod now state.packetCoder
  | generateCipherSeed | sendMessage | setEncryptSeed | setDecryptSeed | seedExchanged => rfl

theorem exchange_period (now : TimePoint) (outcome : PacketSeedExchangerForServer.Outcome)
    (state : SeedState (SecurePacketCoder suite κ)) :
    (state.exchange now outcome).packetCoder.cipherKeyPeriod = state.packetCoder.cipherKeyPeriod := by
  have folded : ∀ (effects : List ExchangeEffect) (state : SeedState (SecurePacketCoder suite κ)),
      (effects.foldl (SeedState.perform now) state).packetCoder.cipherKeyPeriod =
        state.packetCoder.cipherKeyPeriod := by
    intro effects
    induction effects with
    | nil => exact fun _ => rfl
    | cons effect rest induction =>
        intro state
        rw [List.foldl_cons, induction, perform_period]
  exact folded outcome.2 _

structure Exchanging (state : SeedState (SecurePacketCoder suite κ)) : Prop where
  period : 0 < state.packetCoder.cipherKeyPeriod
  coherent : state.Coherent

theorem Exchanging.continues {state : SeedState (SecurePacketCoder suite κ)}
    (exchanging : Exchanging state) {outcome : PacketSeedExchangerForServer.Outcome}
    (continues : Continues state.packetSeedExchanger outcome) (now : TimePoint) :
    Exchanging (state.exchange now outcome) :=
  { period := by rw [exchange_period]; exact exchanging.period
    coherent := (SeedState.exchange_continues continues now).2 exchanging.coherent }

omit [PacketCoder κ] in
theorem Exchanging.append {state : SeedState (SecurePacketCoder suite κ)}
    (exchanging : Exchanging state) {records : List SessionRecord}
    (passing : ∀ entry ∈ records, entry.isPassing = true) : Exchanging (state.append records) :=
  { period := exchanging.period, coherent := exchanging.coherent.append passing }

theorem messaging_justified {state : SeedState (SecurePacketCoder suite κ)}
    (exchanging : Exchanging state) (config : ServerSideSessionConfig) (surroundings : Surroundings)
    (messageType : MessageType) (body : List UInt8) :
    let after := state.messaging config surroundings messageType body
    Exchanging after ∧ (Throughout Justified after.history ↔ Throughout Justified state.history ∧
      (messageType = csmtSystemConfirmSeed → ∃ seed, ExchangeOpen state.history seed)) := by
  intro after
  by_cases publicKey : messageType = csmtSystemExchangePublicKey
  · have other : messageType ≠ csmtSystemConfirmSeed := by
      rw [publicKey]
      decide
    have same : (messageType = csmtSystemConfirmSeed → ∃ seed, ExchangeOpen state.history seed) :=
      fun confirm => absurd confirm other
    rw [and_iff_left same]
    change Exchanging (state.messaging config surroundings messageType body) ∧
      (Throughout Justified (state.messaging config surroundings messageType body).history ↔ _)
    unfold SeedState.messaging
    rw [if_pos publicKey]
    cases config.streamFactory.deserialize ExchangePublicKeyMessage.read body with
    | ok message =>
        have continues := on_exchange_public_key_continues surroundings.callback surroundings.clock
          state.packetCoder message state.packetSeedExchanger (decide_eq_true exchanging.period)
        exact ⟨exchanging.continues continues surroundings.now,
          (SeedState.exchange_continues continues surroundings.now).1⟩
    | error e => exact ⟨exchanging, Iff.rfl⟩
  · by_cases confirm : messageType = csmtSystemConfirmSeed
    · have confirmed : after = state.exchange surroundings.now
          state.packetSeedExchanger.onConfirmSeed := by
        change state.messaging config surroundings messageType body = _
        unfold SeedState.messaging
        rw [if_neg publicKey, if_pos confirm]
      rcases SeedState.confirm_justified exchanging.coherent surroundings.now with ⟨justified, coherent⟩
      rw [confirmed]
      refine ⟨⟨by rw [exchange_period]; exact exchanging.period, coherent⟩, ?_⟩
      rw [justified]
      exact and_congr_right' ⟨fun opened _ => opened, fun opened => opened confirm⟩
    · have ignored : after = state := by
        change state.messaging config surroundings messageType body = _
        unfold SeedState.messaging
        rw [if_neg publicKey, if_neg confirm]
      rw [ignored]
      exact ⟨exchanging, (and_iff_left fun same => absurd same confirm).symm⟩

namespace ServerSideSession

/-- A `ConfirmSeed` message that reaches the exchanger finds an open exchange. -/
def ConfirmationAwaited (config : ServerSideSessionConfig)
    (session : ServerSideSession (SecurePacketCoder suite κ)) : Label → Prop
  | .messageArrived surroundings messageType _ =>
      messageType = csmtSystemConfirmSeed → session.impl.isDisconnectReserved = false →
        reachesMessaging surroundings messageType config.extensions = true →
        ∃ seed, ExchangeOpen session.history seed
  | _ => True

theorem handings_pass {messageType : MessageType} {body : List UInt8} {flag : Bool}
    {records : List SessionRecord} (handings : Handings messageType body flag records) :
    ∀ entry ∈ records, entry.isPassing = true := by
  intro entry member
  rcases handings entry member with ⟨extension, rfl⟩
  rfl

theorem message_arrived_justified {session : ServerSideSession (SecurePacketCoder suite κ)}
    (exchanging : Exchanging session.seedState) (config : ServerSideSessionConfig)
    (surroundings : Surroundings) (messageType : MessageType) (body : List UInt8) :
    let after := session.messageArrived config surroundings messageType body
    Exchanging after.seedState ∧ (Throughout Justified after.history ↔
      Throughout Justified session.history ∧
        session.ConfirmationAwaited config (.messageArrived surroundings messageType body)) := by
  intro after
  cases reserved : session.impl.isDisconnectReserved with
  | true =>
      have same : after = session :=
        session.message_arrived_reserved config surroundings messageType body reserved
      rw [same]
      refine ⟨exchanging, (and_iff_left ?_).symm⟩
      intro _ unreserved
      rw [reserved] at unreserved
      cases unreserved
  | false =>
      rcases session.message_arrived_seedState config surroundings messageType body reserved with
        ⟨before, later, state, handings, _, split, arrived⟩
      have passing := handings_pass handings
      have passingBefore : ∀ entry ∈ before, entry.isPassing = true := fun entry member =>
        passing entry (List.mem_append_left _ member)
      have passingLater : ∀ entry ∈ later, entry.isPassing = true := fun entry member =>
        passing entry (List.mem_append_right _ member)
      have handed := exchanging.append passingBefore
      rcases passing_append passingBefore session.history with ⟨sameJustified, sameOpen⟩
      have extensions : Exchanging state ∧ (Throughout Justified state.history ↔
          Throughout Justified session.history ∧
            session.ConfirmationAwaited config (.messageArrived surroundings messageType body)) := by
        rw [split]
        cases reaches : reachesMessaging surroundings messageType config.extensions with
        | true =>
            rcases messaging_justified handed config surroundings messageType body with
              ⟨messaging, justified⟩
            refine ⟨messaging.append passingLater, ?_⟩
            apply ((passing_append passingLater _).1.trans justified).trans
            apply and_congr sameJustified
            constructor
            · intro opened confirm _ _
              rcases opened confirm with ⟨seed, openNow⟩
              exact ⟨seed, (sameOpen seed).mp openNow⟩
            · intro awaited confirm
              rcases awaited confirm reserved reaches with ⟨seed, openNow⟩
              exact ⟨seed, (sameOpen seed).mpr openNow⟩
        | false =>
            refine ⟨handed.append passingLater, ?_⟩
            apply ((passing_append passingLater _).1.trans sameJustified).trans
            apply (and_iff_left _).symm
            intro _ _ reached
            rw [reaches] at reached
            cases reached
      change Exchanging after.seedState ∧ (Throughout Justified after.seedState.history ↔ _)
      rcases arrived with quiet | next
      · rw [quiet]
        exact extensions
      · have continues := exchange_next_seed_continues surroundings.callback surroundings.now
          surroundings.clock state.packetCoder state.packetSeedExchanger
        rw [next]
        exact ⟨extensions.1.continues continues surroundings.now,
          (SeedState.exchange_continues continues surroundings.now).1.trans extensions.2⟩

theorem session_opened_justified {session : ServerSideSession (SecurePacketCoder suite κ)}
    (exchanging : Exchanging session.seedState) (config : ServerSideSessionConfig)
    (surroundings : Surroundings) :
    let after := session.sessionOpened config surroundings
    Exchanging after.seedState ∧
      (Throughout Justified after.history ↔ Throughout Justified session.history) := by
  intro after
  have history : after.history = session.history ++ [.connected] := rfl
  refine ⟨⟨exchanging.period, ?_⟩, ?_⟩
  · intro seed opened
    have concat : ExchangeOpen (session.history ++ [.connected]) seed := opened
    exact absurd rfl (exchange_open_of_concat concat nofun).2.1
  · rw [history, throughout_concat]
    exact and_iff_left trivial

theorem step_justified {session next : ServerSideSession (SecurePacketCoder suite κ)} {label : Label}
    {config : ServerSideSessionConfig} (exchanging : Exchanging session.seedState)
    (step : Step config session label next) :
    Exchanging next.seedState ∧ (Throughout Justified next.history ↔
      Throughout Justified session.history ∧ session.ConfirmationAwaited config label) := by
  cases step with
  | connected surroundings _ =>
      rcases session_opened_justified exchanging config surroundings with ⟨after, justified⟩
      exact ⟨after, justified.trans (and_iff_left trivial).symm⟩
  | messageArrived surroundings messageType body =>
      exact message_arrived_justified exchanging config surroundings messageType body
  | transport moves =>
      refine ⟨⟨?_, exchanging.coherent⟩, (and_iff_left trivial).symm⟩
      apply moves.marshaller_kept fun marshaller => 0 < marshaller.packetCoder.cipherKeyPeriod
      · intro mblock messageType marshaller period
        exact Nat.lt_of_lt_of_eq period (marshal_period mblock messageType marshaller).symm
      · exact fun _ _ period => period
      · exact exchanging.period

/-- Decrypt seeds are installed, and the seeds count as exchanged, for open exchanges only in
exactly the runs in which each `ConfirmSeed` message answers an open exchange. -/
theorem seeds_confirmed_iff (config : ServerSideSessionConfig)
    {first last : ServerSideSession (SecurePacketCoder suite κ)} {labels : List Label}
    (fresh : first.history = []) (period : 0 < first.packetCoder.cipherKeyPeriod)
    (run : Run (Step config) first labels last) :
    Throughout Justified last.history ↔
      Run (Where (Step config) (ConfirmationAwaited config)) first labels last := by
  apply run.safe_iff (fun session => Exchanging session.seedState)
    (fun session => Throughout Justified session.history)
  · refine ⟨period, ?_⟩
    rintro seed ⟨earlier, encryptSeed, message, since, split, _⟩
    change first.history = _ at split
    simp [fresh] at split
  · rw [fresh]
    exact throughout_nil Justified
  · intro session label next exchanging step
    exact (step_justified exchanging step).1
  · intro session label next exchanging step
    exact (step_justified exchanging step).2

theorem seeds_confirmed_after_exchange :
    ∃ last, Run (Step sgpSessionConfig) teaSession
        [.connected rpcSurroundings, .messageArrived rpcSurroundings 2 [0, 0],
          .messageArrived rpcSurroundings 3 []] last ∧
      .exchange .seedExchanged ∈ last.history ∧
      (Throughout Justified last.history ↔
        Run (Where (Step sgpSessionConfig) (ConfirmationAwaited sgpSessionConfig)) teaSession
          [.connected rpcSurroundings, .messageArrived rpcSurroundings 2 [0, 0],
            .messageArrived rpcSurroundings 3 []] last) := by
  have opens : Run (Step sgpSessionConfig) teaSession [] _ := .start _
  have connects := opens.next (.connected rpcSurroundings rfl)
  have exchanges := (connects.next (.messageArrived _ rpcSurroundings 2 [0, 0])).next
    (.messageArrived _ rpcSurroundings 3 [])
  exact ⟨_, exchanges, by decide, seeds_confirmed_iff sgpSessionConfig rfl (by decide) exchanges⟩

/-- A client that has just connected confirms seeds that the server never sent. -/
theorem confirmation_without_exchange_is_accepted :
    ¬∀ labels last, Run (Step sgpSessionConfig) teaSession labels last →
      Throughout Justified last.history := by
  intro justified
  have opens : Run (Step sgpSessionConfig) teaSession [] _ := .start _
  have connects := opens.next (.connected rpcSurroundings rfl)
  have confirms := connects.next (.messageArrived _ rpcSurroundings 3 [])
  rcases justified _ _ confirms [.connected, .handed .messaging 3 [] false]
      (.exchange (.setDecryptSeed [])) [.exchange .seedExchanged] rfl with
    ⟨earlier, encryptSeed, message, since, split, _⟩
  have member : .exchange (.sendMessage (.exchangeSeed message)) ∈
      [SessionRecord.connected, .handed .messaging 3 [] false] := by
    rw [split]
    simp
  simp at member

end ServerSideSession

end SecureSessions

end Sne.Server
