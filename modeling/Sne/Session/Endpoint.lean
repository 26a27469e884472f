import Sne.Session.MarshalSteps
import Sne.Session.ReadPath
import Sne.Sgp.PacketsInFlight

/-!
# One end of a connection

A session whose reads are unmarshalled: what `handle_read` does with the bytes that it
is given is computed by the session's own marshaller. The state records the messages
that were accepted for the peer, the bytes that were read, the messages in them, those
that the session's callback was called with and whether it did not accept one of them.
-/

namespace Sne.Session

open Sne.Base Sne.Sgp Sne.Library.Runs Sne.Library.Framing

set_option autoImplicit false

section Unmarshal

variable {κ χ : Type} [PacketCoder κ]

/-- Whatever the callback replies, the fact holds of the coder and the state that it leaves. -/
def CallKeeps {κ χ : Type} (callback : MarshallerCallback κ χ) (Kept : κ → χ → Prop) : Prop :=
  ∀ messageType coder mblock context, Kept coder context →
    match callback messageType (coder, mblock, context) with
    | .ok _ (coder, _, context) => Kept coder context
    | .error _ (coder, _, context) => Kept coder context

/-- What decoding and the callback keep is kept by `unmarshal`. -/
theorem unmarshal_keeps {callback : MarshallerCallback κ χ} (Kept : κ → χ → Prop)
    (decode : ∀ mblock coder context, Kept coder context →
      Kept (PacketCoder.decode mblock coder).coder context)
    (call : CallKeeps callback Kept)
    (fuel received : Nat) (marshaller : SgpMarshaller κ) (context : χ)
    (kept : Kept marshaller.packetCoder context) :
    Kept (marshaller.unmarshalLoop callback fuel received context).marshaller.packetCoder
      (marshaller.unmarshalLoop callback fuel received context).context := by
  induction fuel generalizing received marshaller context with
  | zero => exact kept
  | succ fuel induction =>
      have header : marshaller.parseHeader.2.packetCoder = marshaller.packetCoder := by
        unfold SgpMarshaller.parseHeader
        dsimp only
        split <;> rfl
      have message : ∀ other : SgpMarshaller κ, Kept other.packetCoder context →
          Kept other.parseMessage.2.packetCoder context := by
        intro other before
        unfold SgpMarshaller.parseMessage
        dsimp only
        split <;> exact decode _ _ _ before
      unfold SgpMarshaller.unmarshalLoop
      dsimp only
      rw [← header] at kept
      split
      · rw [header] at kept
        exact kept
      · split
        · exact kept
        · split
          · exact kept
          · have decoded := message _ kept
            split
            · exact decoded
            · have called := call marshaller.parseHeader.2.parseMessage.2.headerForReceive.messageType _
                marshaller.parseHeader.2.parseMessage.2.msgBlock context decoded
              split
              · rename_i reply
                rw [reply] at called
                exact induction _ _ _ called
              · rename_i reply
                rw [reply] at called
                exact called
              · rename_i reply
                rw [reply] at called
                exact called

end Unmarshal

/-- `TcpSessionImpl::messageUnmarshalled`: a session that is about to disconnect drops what arrives. -/
def messageUnmarshalled {κ χ : Type} (isDisconnectReserved : Bool) (callback : MarshallerCallback κ χ) :
    MarshallerCallback κ χ :=
  fun messageType state =>
    if isDisconnectReserved then .ok true state else callback messageType state

theorem message_unmarshalled_leaves {κ χ : Type} {callback : MarshallerCallback κ χ}
    (leaves : LeavesCoder callback) (isDisconnectReserved : Bool) :
    LeavesCoder (messageUnmarshalled isDisconnectReserved callback) := by
  intro messageType coder mblock context
  cases isDisconnectReserved with
  | true => exact ⟨mblock, context, .inl rfl⟩
  | false => exact leaves messageType coder mblock context

theorem message_unmarshalled_marks {κ χ : Type} {callback : MarshallerCallback κ χ} {Marked : χ → Prop}
    (marks : MarksRefusal callback Marked) (isDisconnectReserved : Bool) :
    MarksRefusal (messageUnmarshalled isDisconnectReserved callback) Marked := by
  intro messageType state
  cases isDisconnectReserved with
  | true => exact nofun
  | false => exact marks messageType state

theorem recorded_leaves {κ χ : Type} {callback : MarshallerCallback κ χ}
    (leaves : LeavesCoder callback) : LeavesCoder (recorded callback) := by
  intro messageType coder mblock context
  obtain ⟨after, next, accepted | refused | ⟨e, failed⟩⟩ := leaves messageType coder mblock context.1
  · exact ⟨after, (next, context.2 ++ [(messageType, mblock.contents)]), .inl (by
      simp only [recorded, accepted])⟩
  · exact ⟨after, (next, context.2 ++ [(messageType, mblock.contents)]), .inr (.inl (by
      simp only [recorded, refused]))⟩
  · exact ⟨after, (next, context.2 ++ [(messageType, mblock.contents)]), .inr (.inr ⟨e, by
      simp only [recorded, failed]⟩)⟩

/-- What reading leaves alone, with the handlers that it may post. -/
structure OnlyReads {μ : Type} (calls : List PostedHandler) (session next : TcpSessionImpl μ) :
    Prop where
  isSocketOpen : next.isSocketOpen = session.isSocketOpen
  outputQueue : next.outputQueue = session.outputQueue
  isWritePended : next.isWritePended = session.isWritePended
  handed : next.handed = session.handed
  posted : ∃ added, next.posted = session.posted ++ calls ++ added ∧
    ∀ handler ∈ added, handler.isSendMessage = false

section Reads

variable {μ : Type}

theorem OnlyReads.of_posted {calls : List PostedHandler} {session next : TcpSessionImpl μ}
    (added : List PostedHandler) (same : next = { session with
      marshaller := next.marshaller
      throttleTimer := next.throttleTimer
      posted := session.posted ++ calls ++ added })
    (disconnects : ∀ handler ∈ added, handler.isSendMessage = false) :
    OnlyReads calls session next := by
  constructor
  · rw [same]
  · rw [same]
  · rw [same]
  · rw [same]
  · exact ⟨added, by rw [same], disconnects⟩

theorem OnlyReads.of_quiet {session next : TcpSessionImpl μ}
    (isSocketOpen : next.isSocketOpen = session.isSocketOpen)
    (outputQueue : next.outputQueue = session.outputQueue)
    (isWritePended : next.isWritePended = session.isWritePended)
    (handed : next.handed = session.handed) (posted : next.posted = session.posted) :
    OnlyReads [] session next := by
  refine ⟨isSocketOpen, outputQueue, isWritePended, handed, [], ?_,
    fun _ none => absurd none List.not_mem_nil⟩
  rw [posted, List.append_nil, List.append_nil]

theorem disconnect_is_no_message :
    ∀ handler ∈ [PostedHandler.disconnect], handler.isSendMessage = false := by
  intro handler member
  rw [List.mem_singleton.mp member]
  rfl

theorem read_only_reads (reader : Nat) (received : Received μ) (pooled : PooledSession μ) :
    OnlyReads received.calls pooled.session (pooled.handleRead .success reader received).session := by
  have nothing : ∀ handler ∈ ([] : List PostedHandler), handler.isSendMessage = false :=
    fun _ none => absurd none List.not_mem_nil
  unfold PooledSession.handleRead PooledSession.messageBlockReceived
  rw [if_pos rfl]
  dsimp only
  split
  · exact .of_posted [.disconnect] rfl disconnect_is_no_message
  · split
    · unfold PooledSession.startThrottleTimer
      split <;> exact .of_posted [] (by simp only [PooledSession.postAll, List.append_nil]) nothing
    · refine .of_posted [] ?_ nothing
      simp only [PooledSession.postAll, List.append_nil]
      rfl

theorem failed_read_only_reads {error : ErrorCode} (failed : error ≠ .success) (reader : Nat)
    (received : Received μ) (pooled : PooledSession μ) :
    OnlyReads [] pooled.session (pooled.handleRead error reader received).session := by
  unfold PooledSession.handleRead
  rw [if_neg failed]
  exact .of_posted [.disconnect] (by simp only [List.append_nil]; rfl) disconnect_is_no_message

theorem read_marshaller (error : ErrorCode) (reader : Nat) (received : Received μ)
    (pooled : PooledSession μ) :
    (pooled.handleRead error reader received).session.marshaller =
      if error = .success then received.marshaller else pooled.session.marshaller := by
  unfold PooledSession.handleRead PooledSession.messageBlockReceived
  split
  · dsimp only
    split
    · rfl
    · split
      · unfold PooledSession.startThrottleTimer
        split <;> rfl
      · rfl
  · rfl

/-- A read asks for a disconnect when its bytes cannot be unmarshalled. -/
theorem read_requests_disconnect (index reader : Nat) (received : Received μ)
    (pooled : PooledSession μ) :
    ReadingSession.requestsDisconnect (.readCompleted index .success received)
      (pooled.handleRead .success reader received) = !received.isUnmarshalled := by
  cases unmarshalled : received.isUnmarshalled with
  | true => exact ReadingSession.requests_nothing index unmarshalled
  | false =>
      apply ReadingSession.requests_disconnect index (.inr unmarshalled)
        (pooled.session.posted ++ received.calls)
      unfold PooledSession.handleRead PooledSession.messageBlockReceived
      simp only [unmarshalled, Bool.not_false, if_true]
      rfl

theorem throttle_only_reads (error : ErrorCode) (pooled : PooledSession μ) (waits : List Wait) :
    OnlyReads [] pooled.session (PooledSession.throttleTimerHandler error { pooled with
        session := { pooled.session with
          throttleTimer := { pooled.session.throttleTimer with waits } } }).session ∧
      (PooledSession.throttleTimerHandler error { pooled with
        session := { pooled.session with
          throttleTimer := { pooled.session.throttleTimer with waits } } }).session.marshaller =
        pooled.session.marshaller := by
  unfold PooledSession.throttleTimerHandler
  dsimp only
  split
  · exact ⟨OnlyReads.of_quiet rfl rfl rfl rfl rfl, rfl⟩
  · exact ⟨OnlyReads.of_quiet rfl rfl rfl rfl rfl, rfl⟩

end Reads

/-- One end of a connection with the state of its callback. The other fields are observations: the
callback was called with a message that it did not accept when `hasRefused` is set, and a message was
not shown to it when `hasDropped` is. -/
structure Endpoint (κ χ : Type) where
  connection : ReadingSession (SgpMarshaller κ)
  context : χ
  sent : List (MessageType × List UInt8) := []
  read : List UInt8 := []
  unmarshalled : List (MessageType × List UInt8) := []
  arrived : List (MessageType × List UInt8) := []
  hasRefused : Bool := false
  hasDropped : Bool := false

namespace Endpoint

variable {κ χ : Type} [PacketCoder κ]

def session (endpoint : Endpoint κ χ) :
    TcpSessionImpl (SgpMarshaller κ) := endpoint.connection.pooled.session

def coder (endpoint : Endpoint κ χ) : κ := endpoint.session.marshaller.packetCoder

def isConnected (endpoint : Endpoint κ χ) : Bool := endpoint.session.isConnected

def written (endpoint : Endpoint κ χ) : List UInt8 :=
  (TcpSessionImpl.handedMessages endpoint.session.handed).flatten

/-- The message that the step accepts: its type and the body in its block. -/
def accepted (endpoint : Endpoint κ χ) (label : TcpSessionImpl.Label) :
    List (MessageType × List UInt8) :=
  match endpoint.session.marshalsNext label with
  | none => []
  | some (mblock, messageType) =>
      if endpoint.session.accepts mblock messageType then
        [(messageType, mblock.bytes.drop (PacketCoder.getHeaderSize endpoint.coder))]
      else
        []

/-- The contexts of the two logs: that of the callback, with its mark, and that of the marshaller. -/
abbrev Logs (χ : Type) :=
  ((χ × Bool) × List (MessageType × List UInt8)) × List (MessageType × List UInt8)

def callbackOf (callback : MarshallerCallback κ χ) (isDisconnectReserved : Bool) :
    MarshallerCallback κ (Logs χ) :=
  recorded (messageUnmarshalled isDisconnectReserved (recorded (marked callback)))

def unmarshal (callback : MarshallerCallback κ χ) (chunk : List UInt8) (endpoint : Endpoint κ χ) :
    Unmarshalled κ (Logs χ) :=
  (endpoint.session.marshaller.receive chunk).unmarshal
    (callbackOf callback endpoint.session.isDisconnectReserved)
    (((endpoint.context, false), endpoint.arrived), endpoint.unmarshalled)

inductive Label where
  | session (label : TcpSessionImpl.Label)
  | read (index : Nat) (chunk : List UInt8) (calls : List PostedHandler) (isKarmaRemained : Bool)
  | readFailed (index : Nat) (error : ErrorCode)
  | throttleTimerExpires (index : Nat)
  | throttleTimerHandler (index : Nat)

/-- What the marshaller makes of the bytes that were read. -/
def received (callback : MarshallerCallback κ χ) (chunk : List UInt8) (calls : List PostedHandler)
    (isKarmaRemained : Bool) (endpoint : Endpoint κ χ) : Received (SgpMarshaller κ) :=
  let unmarshalled := endpoint.unmarshal callback chunk
  { marshaller := unmarshalled.marshaller
    calls
    isUnmarshalled := unmarshalled.succeeded
    isKarmaRemained }

def Label.isReadFailed : Label → Bool
  | .readFailed _ _ => true
  | _ => false

def Label.asks : Label → List PostedHandler
  | .session label => label.posts
  | .read _ _ calls _ => calls
  | .readFailed _ _ => []
  | .throttleTimerExpires _ => []
  | .throttleTimerHandler _ => []

def Label.ofSession (callback : MarshallerCallback κ χ) (endpoint : Endpoint κ χ) :
    Label → PooledSession.Label (SgpMarshaller κ)
  | .session label => .session label
  | .read index chunk calls isKarmaRemained =>
      .readCompleted index .success (endpoint.received callback chunk calls isKarmaRemained)
  | .readFailed index error => .readCompleted index error { marshaller := endpoint.session.marshaller }
  | .throttleTimerExpires index => .throttleTimerExpires index
  | .throttleTimerHandler index => .throttleTimerHandler index

def record (callback : MarshallerCallback κ χ) (endpoint : Endpoint κ χ) : Label → Endpoint κ χ
  | .session label => { endpoint with sent := endpoint.sent ++ endpoint.accepted label }
  | .read _ chunk _ _ =>
      let unmarshalled := endpoint.unmarshal callback chunk
      { endpoint with
        context := unmarshalled.context.1.1.1
        read := endpoint.read ++ chunk
        unmarshalled := unmarshalled.context.2
        arrived := unmarshalled.context.1.2
        hasRefused := endpoint.hasRefused || unmarshalled.context.1.1.2
        hasDropped := endpoint.hasDropped || endpoint.session.isDisconnectReserved }
  | _ => endpoint

def CanHappen : Label → Prop
  | .readFailed _ error => error ≠ .success
  | _ => True

instance (label : Label) : Decidable (CanHappen label) :=
  match label with
  | .readFailed _ _ => inferInstanceAs (Decidable (_ ≠ _))
  | .session _ => .isTrue trivial
  | .read _ _ _ _ => .isTrue trivial
  | .throttleTimerExpires _ => .isTrue trivial
  | .throttleTimerHandler _ => .isTrue trivial

def advance (callback : MarshallerCallback κ χ) (endpoint : Endpoint κ χ) (label : Label) :
    Option (Endpoint κ χ) :=
  if CanHappen label then
    (endpoint.connection.advance (label.ofSession callback endpoint)).map fun connection =>
      { endpoint.record callback label with connection }
  else
    none

def Step (callback : MarshallerCallback κ χ) (endpoint : Endpoint κ χ) (label : Label)
    (next : Endpoint κ χ) : Prop :=
  endpoint.advance callback label = some next

/-- What a step does: it is a step of the session, or a read whose bytes are unmarshalled, or it
changes nothing that is read or written. -/
inductive Happens (callback : MarshallerCallback κ χ) (endpoint : Endpoint κ χ) :
    Label → Endpoint κ χ → Prop where
  | session {label : TcpSessionImpl.Label} {next : Endpoint κ χ} :
      TcpSessionImpl.Step endpoint.session label next.session →
      next.connection.isDisconnectRequested = endpoint.connection.isDisconnectRequested →
      next = { endpoint with
        connection := next.connection, sent := endpoint.sent ++ endpoint.accepted label } →
      Happens callback endpoint (.session label) next
  | read {index : Nat} {chunk : List UInt8} {calls : List PostedHandler} {isKarmaRemained : Bool}
      {next : Endpoint κ χ} :
      0 < endpoint.connection.outstandingReads →
      OnlyReads calls endpoint.session next.session →
      next.session.marshaller = (endpoint.unmarshal callback chunk).marshaller →
      next.connection.isDisconnectRequested = (endpoint.connection.isDisconnectRequested ||
        !(endpoint.unmarshal callback chunk).succeeded) →
      next = { endpoint.record callback (.read index chunk calls isKarmaRemained) with
        connection := next.connection } →
      Happens callback endpoint (.read index chunk calls isKarmaRemained) next
  | other {label : Label} {next : Endpoint κ χ} :
      label.asks = [] →
      OnlyReads [] endpoint.session next.session →
      next.session.marshaller = endpoint.session.marshaller →
      (next.connection.isDisconnectRequested = endpoint.connection.isDisconnectRequested ∨
        label.isReadFailed = true ∧ next.connection.isDisconnectRequested = true) →
      next = { endpoint with connection := next.connection } →
      Happens callback endpoint label next

/-- Every step is one of these, and a step of the connection. -/
theorem Step.happens {callback : MarshallerCallback κ χ} {endpoint next : Endpoint κ χ} {label : Label}
    (step : Step callback endpoint label next) :
    Happens callback endpoint label next ∧
      endpoint.connection.Step (label.ofSession callback endpoint) next.connection := by
  unfold Step advance at step
  split at step
  · rename_i canHappen
    rcases Option.map_eq_some_iff.mp step with ⟨connection, advances, rfl⟩
    refine ⟨?_, advances⟩
    unfold ReadingSession.advance at advances
    split at advances
    · rename_i ofConnection
      rcases Option.map_eq_some_iff.mp advances with ⟨pooled, moves, rfl⟩
      cases label with
      | session label =>
          rcases Option.map_eq_some_iff.mp moves with ⟨session, taken, rfl⟩
          exact .session (endpoint.session.advance_sound label session taken) (Bool.or_false _) rfl
      | read index chunk calls isKarmaRemained =>
          rcases Option.map_eq_some_iff.mp moves with ⟨reader, found, rfl⟩
          have reads := read_only_reads reader
            (endpoint.received callback chunk calls isKarmaRemained)
            { endpoint.connection.pooled with
              readers := endpoint.connection.pooled.readers.eraseIdx index }
          exact .read (List.count_pos_iff.mpr (List.mem_of_getElem? ofConnection)) reads
            (read_marshaller .success reader _ _)
            (congrArg (endpoint.connection.isDisconnectRequested || ·)
              (read_requests_disconnect index reader
                (endpoint.received callback chunk calls isKarmaRemained) _)) rfl
      | readFailed index error =>
          rcases Option.map_eq_some_iff.mp moves with ⟨reader, found, rfl⟩
          have reads := failed_read_only_reads canHappen reader
            { marshaller := endpoint.session.marshaller }
            { endpoint.connection.pooled with
              readers := endpoint.connection.pooled.readers.eraseIdx index }
          refine .other rfl reads ?_ ?_ rfl
          · exact (read_marshaller error reader _ _).trans (if_neg canHappen)
          · cases requests : endpoint.connection.isDisconnectRequested || ReadingSession.requestsDisconnect
              (.readCompleted index error { marshaller := endpoint.session.marshaller })
              (PooledSession.handleRead error reader { marshaller := endpoint.session.marshaller }
                { endpoint.connection.pooled with
                  readers := endpoint.connection.pooled.readers.eraseIdx index }) with
            | true => exact .inr ⟨rfl, requests⟩
            | false => exact .inl (requests.trans (Bool.or_eq_false_iff.mp requests).1.symm)
      | throttleTimerExpires index =>
          cases moves
          exact .other rfl (.of_quiet rfl rfl rfl rfl rfl) rfl (.inl (Bool.or_false _)) rfl
      | throttleTimerHandler index =>
          rcases Option.bind_eq_some_iff.mp moves with ⟨wait, _, delivered⟩
          rcases Option.map_eq_some_iff.mp delivered with ⟨error, _, rfl⟩
          have handled := throttle_only_reads error endpoint.connection.pooled
            (endpoint.connection.pooled.session.throttleTimer.waits.eraseIdx index)
          exact .other rfl handled.1 handled.2 (.inl (Bool.or_false _)) rfl
    · cases advances
  · cases step

end Endpoint

end Sne.Session
