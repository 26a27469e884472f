import Sne.Session.Outgoing
import Sne.Session.WritePath

/-!
# An undisturbed end

The application asks for no disconnect, and no read and no write fails. As long as also no message
is refused, the session stays open: it has nothing but messages posted, its timer is not running
and it has not asked for a disconnect. What it has accepted and what is still posted are the
messages that it was asked to send.
-/

namespace Sne.Session

open Sne.Base Sne.Sgp Sne.Library.Runs

set_option autoImplicit false

namespace TcpSessionImpl

variable {μ : Type}

/-- An open session with nothing but messages posted. Its flag tells of its only write. -/
structure Undisturbed (session : TcpSessionImpl μ) : Prop where
  connected : session.isSocketOpen = true
  disconnectTimer : session.disconnectTimer = {}
  posted : ∀ handler ∈ session.posted, handler.isSendMessage = true
  idle : session.isWritePended = false → session.outputQueue = [] ∧ session.writes = []
  busy : session.isWritePended = true → ∃ write, session.writes = [write] ∧
    ∀ buffers, write = .gather buffers → session.outputMemoryBlocks ≠ []

/-- The blocks that a write still has to be started for, and the writes that are outstanding. -/
def backlog (session : TcpSessionImpl μ) : Nat := 2 * session.outputQueue.length + session.writes.length

theorem Undisturbed.canSendMessage {session : TcpSessionImpl μ} (undisturbed : session.Undisturbed) :
    session.canSendMessage = true := by
  rw [TcpSessionImpl.canSendMessage, isConnected, shouldBlockWrite, undisturbed.connected,
    undisturbed.disconnectTimer]
  rfl

theorem Undisturbed.unreserved {session : TcpSessionImpl μ} (undisturbed : session.Undisturbed) :
    session.isDisconnectReserved = false := by
  rw [isDisconnectReserved, undisturbed.disconnectTimer]

theorem Undisturbed.frame {session next : TcpSessionImpl μ} (undisturbed : session.Undisturbed)
    (connected : next.isSocketOpen = session.isSocketOpen)
    (disconnectTimer : next.disconnectTimer = session.disconnectTimer)
    (posted : ∀ handler ∈ next.posted, handler.isSendMessage = true)
    (pended : next.isWritePended = session.isWritePended)
    (queue : next.outputQueue = session.outputQueue) (writes : next.writes = session.writes)
    (blocks : next.outputMemoryBlocks = session.outputMemoryBlocks) : next.Undisturbed := by
  constructor
  · rw [connected, undisturbed.connected]
  · rw [disconnectTimer, undisturbed.disconnectTimer]
  · exact posted
  · rw [pended, queue, writes]
    exact undisturbed.idle
  · rw [pended, writes, blocks]
    exact undisturbed.busy

/-- A write that is started takes something from the queue. -/
theorem gather_write_shrinks (session : TcpSessionImpl μ) (queued : session.outputQueue ≠ []) :
    session.gatherWrite.outputQueue.length < session.outputQueue.length := by
  rcases queue : session.outputQueue with _ | ⟨mblock, _ | ⟨second, others⟩⟩
  · exact absurd queue queued
  · simp only [gatherWrite, queue, writeMessage, asyncWrite]
    exact Nat.zero_lt_one
  · obtain ⟨taken, rest, split, _, nonempty, gathers⟩ := gather_blocks_takes
      { session with outputBuffers := [], outputMemoryBlocks := [] } session.outputQueue
      (by simp [maxGatherWriteCount])
    have some := List.length_pos_iff.mpr (nonempty queued)
    rw [gather_write_many queue, gathers, ← queue, split, List.length_append]
    simp only [asyncWrite]
    omega

theorem gather_write_posted (session : TcpSessionImpl μ) :
    session.gatherWrite.posted = session.posted := by
  rcases queue : session.outputQueue with _ | ⟨mblock, _ | ⟨second, others⟩⟩
  · simp only [gatherWrite, queue]
  · simp only [gatherWrite, queue]
    rfl
  · obtain ⟨taken, rest, split, _, nonempty, gathers⟩ := gather_blocks_takes
      { session with outputBuffers := [], outputMemoryBlocks := [] } session.outputQueue
      (by simp [maxGatherWriteCount])
    rw [gather_write_many queue, gathers]
    rfl

theorem gather_write_undisturbed (session : TcpSessionImpl μ) (connected : session.isSocketOpen = true)
    (disconnectTimer : session.disconnectTimer = {})
    (posted : ∀ handler ∈ session.posted, handler.isSendMessage = true)
    (notPended : session.isWritePended = false) (written : session.writes = []) :
    session.gatherWrite.Undisturbed ∧ session.gatherWrite.backlog < 2 * session.outputQueue.length + 1 := by
  by_cases queued : session.outputQueue = []
  · have same : session.gatherWrite = session := by
      simp only [gatherWrite, queued]
    rw [same, backlog, queued, written]
    refine ⟨⟨connected, disconnectTimer, posted, fun _ => ⟨queued, written⟩, ?_⟩, Nat.zero_lt_one⟩
    intro pended
    rw [notPended] at pended
    cases pended
  · obtain ⟨taken, rest, write, hands⟩ := session.gather_write_hands queued
    have shrinks := session.gather_write_shrinks queued
    have started : session.gatherWrite.writes = [write] := by
      rw [hands.writes, written]
      rfl
    refine ⟨⟨?_, ?_, ?_, ?_, ?_⟩, ?_⟩
    · rw [hands.connected, connected]
    · rw [hands.disconnectTimer, disconnectTimer]
    · rw [gather_write_posted]
      exact posted
    · intro idle
      rw [hands.pended] at idle
      cases idle
    · exact fun _ => ⟨write, started, hands.gathered⟩
    · rw [backlog, started, List.length_singleton]
      omega

theorem write_completed_undisturbed {session : TcpSessionImpl μ} (undisturbed : session.Undisturbed)
    {earlier later : List AsyncWrite} {write : AsyncWrite}
    (outstanding : session.writes = earlier ++ write :: later) :
    let next := writeCompleted .success write { session with writes := earlier ++ later }
    next.Undisturbed ∧ next.posted = session.posted ∧ next.backlog < session.backlog := by
  have pended : session.isWritePended = true := by
    by_contra idle
    have none := (undisturbed.idle (Bool.eq_false_iff.mpr idle)).2
    rw [none] at outstanding
    exact List.append_ne_nil_of_right_ne_nil _ (List.cons_ne_nil _ _) outstanding.symm
  obtain ⟨only, single, gathered⟩ := undisturbed.busy pended
  have count : session.backlog = 2 * session.outputQueue.length + 1 := by
    rw [backlog, single, List.length_singleton]
  rw [single] at outstanding
  obtain ⟨rfl, rfl, rfl⟩ : earlier = [] ∧ write = only ∧ later = [] := by
    cases earlier with
    | nil => simpa [eq_comm] using outstanding
    | cons other others => simp at outstanding
  rw [count]
  cases write with
  | single mblock =>
      obtain ⟨next, less⟩ := gather_write_undisturbed
        ({ session with writes := [] }.writeSucceeded mblock) undisturbed.connected
        undisturbed.disconnectTimer undisturbed.posted rfl rfl
      exact ⟨next.frame rfl rfl next.posted rfl rfl rfl rfl, gather_write_posted _, less⟩
  | gather buffers =>
      obtain ⟨stats, released, rounds⟩ := gather_written_loop session.outputMemoryBlocks
        { session with writes := [] }
      have someBlocks : session.outputMemoryBlocks.isEmpty = false := by
        simpa using gathered buffers rfl
      simp only [writeCompleted, handleGatherWrite, List.append_nil, rounds, if_true]
      obtain ⟨next, less⟩ := gather_write_undisturbed { session with
        writes := [], isWritePended := session.isWritePended && session.outputMemoryBlocks.isEmpty
        stats, released, outputBuffers := [], outputMemoryBlocks := [] } undisturbed.connected
        undisturbed.disconnectTimer undisturbed.posted (by rw [someBlocks, Bool.and_false]) rfl
      exact ⟨next, gather_write_posted _, less⟩

theorem check_output_queue_logs (session : TcpSessionImpl μ) :
    ∃ logged, session.checkOutputQueue.2 = { session with prevLoggedOutputQueueSize := logged } := by
  unfold checkOutputQueue
  dsimp only
  split
  · exact ⟨_, rfl⟩
  · split
    · exact ⟨_, rfl⟩
    · exact ⟨_, rfl⟩

/-- What the handler of a message that is accepted does: the message is queued or written. -/
theorem accepted_handler [Marshaller μ] {session : TcpSessionImpl μ} {mblock : BlockPointer}
    {messageType : MessageType} (accepts : session.accepts mblock messageType = true) :
    ∃ logged, session.sendMessageHandler mblock messageType =
      let marshalled := Marshaller.marshal mblock.mblock messageType session.marshaller
      if session.isWritePended then
        { session with
          marshaller := marshalled.2.2
          prevLoggedOutputQueueSize := logged
          outputQueue := session.outputQueue ++ [{ mblock with mblock := marshalled.2.1 }] }.notify
          (.messageTransfered messageType)
      else
        ({ session with marshaller := marshalled.2.2 }.writeMessage
          { mblock with mblock := marshalled.2.1 }).notify (.messageTransfered messageType) := by
  rw [TcpSessionImpl.accepts, Bool.and_eq_true, Bool.and_eq_true] at accepts
  obtain ⟨⟨sendable, marshals⟩, room⟩ := accepts
  obtain ⟨logged, logs⟩ := check_output_queue_logs { session with
    marshaller := (Marshaller.marshal mblock.mblock messageType session.marshaller).2.2 }
  refine ⟨logged, ?_⟩
  simp only [sendMessageHandler, sendable, marshals, Bool.not_true, Bool.false_eq_true, if_false]
  by_cases pended : session.isWritePended = true
  · rw [pended, Bool.not_true, Bool.false_or] at room
    have fits : ({ session with
        marshaller := (Marshaller.marshal mblock.mblock messageType session.marshaller).2.2
        }.checkOutputQueue).1 = true := by
      rw [check_output_queue_accepts] at room ⊢
      exact room
    rw [if_pos pended, if_pos pended, if_pos fits, logs]
  · rw [if_neg pended, if_neg pended]

theorem accepted_undisturbed [Marshaller μ] {session : TcpSessionImpl μ}
    (undisturbed : session.Undisturbed)
    {mblock : BlockPointer} {messageType : MessageType}
    (accepts : session.accepts mblock messageType = true) :
    (session.sendMessageHandler mblock messageType).Undisturbed ∧
      (session.sendMessageHandler mblock messageType).posted = session.posted := by
  obtain ⟨logged, handles⟩ := accepted_handler accepts
  rw [handles]
  dsimp only
  cases pended : session.isWritePended with
  | true =>
      exact ⟨⟨undisturbed.connected, undisturbed.disconnectTimer, undisturbed.posted, nofun,
        fun _ => undisturbed.busy pended⟩, rfl⟩
  | false =>
      refine ⟨⟨undisturbed.connected, undisturbed.disconnectTimer, undisturbed.posted, nofun, ?_⟩, rfl⟩
      intro _
      refine ⟨.single { mblock with
        mblock := (Marshaller.marshal mblock.mblock messageType session.marshaller).2.1 }, ?_, nofun⟩
      simp only [if_false, notify, writeMessage, asyncWrite, (undisturbed.idle pended).2, List.nil_append,
        Bool.false_eq_true]

def Label.Succeeds : Label → Prop
  | .disconnect => False
  | .disconnectGracefully => False
  | .writeCompleted _ error => error = .success
  | _ => True

def WorksOff (session next : TcpSessionImpl μ) : Label → Prop
  | .handler _ => next.posted.length < session.posted.length
  | .writeCompleted _ _ => next.posted = session.posted ∧ next.backlog < session.backlog
  | _ => True

theorem Undisturbed.step [Marshaller μ] {session next : TcpSessionImpl μ} {label : Label}
    (undisturbed : session.Undisturbed) (step : Step session label next) (succeeds : label.Succeeds)
    (accepts : label.isHandler = true → ∀ mblock messageType rest,
      session.posted = .sendMessage mblock messageType :: rest → session.accepts mblock messageType = true) :
    next.Undisturbed ∧ session.WorksOff next label := by
  cases step with
  | sendMessage mblock messageType =>
      refine ⟨undisturbed.frame rfl rfl ?_ rfl rfl rfl rfl, trivial⟩
      intro handler member
      rcases List.mem_append.mp member with earlier | last
      · exact undisturbed.posted handler earlier
      · rw [List.mem_singleton.mp last]
        rfl
  | disconnect => exact absurd succeeds id
  | disconnectGracefully => exact absurd succeeds id
  | disconnectTimerExpires index =>
      refine ⟨undisturbed.frame rfl ?_ undisturbed.posted rfl rfl rfl rfl, trivial⟩
      rw [undisturbed.disconnectTimer]
      exact AsioTimer.expire_nil index false
  | disconnectTimerHandler earlier waits completed =>
      rw [undisturbed.disconnectTimer] at waits
      exact absurd waits.symm (List.append_ne_nil_of_right_ne_nil _ (List.cons_ne_nil _ _))
  | writeCompleted earlier error outstanding =>
      cases succeeds
      obtain ⟨kept, posted, less⟩ := write_completed_undisturbed undisturbed outstanding
      exact ⟨kept, posted, less⟩
  | handler now posted =>
      rename_i handler rest
      have isMessage := undisturbed.posted handler (by rw [posted]; exact List.mem_cons_self)
      cases handler with
      | disconnect => cases isMessage
      | disconnectGracefully => cases isMessage
      | sendMessage mblock messageType =>
          have accepted := accepts rfl mblock messageType rest posted
          rw [← accepts_posted mblock messageType session rest] at accepted
          have before : Undisturbed { session with posted := rest } := by
            refine undisturbed.frame rfl rfl ?_ rfl rfl rfl rfl
            exact fun other member => undisturbed.posted other (by
              rw [posted]
              exact List.mem_cons_of_mem _ member)
          obtain ⟨kept, same⟩ := accepted_undisturbed before accepted
          refine ⟨kept, ?_⟩
          change (sendMessageHandler mblock messageType _).posted.length < _
          rw [same, posted]
          exact Nat.lt_succ_self _

end TcpSessionImpl

section Reads

variable {μ : Type}

def throttling (timer : AsioTimer) : Nat :=
  timer.waits.length + timer.waits.countP fun wait => decide (wait.status = .waiting)

theorem throttling_expire {timer : AsioTimer} {index : Nat} {wait : Wait}
    (found : timer.waits[index]? = some wait) (waiting : wait.status = .waiting) :
    throttling (timer.expire index) < throttling timer := by
  obtain ⟨bound, same⟩ := List.getElem?_eq_some_iff.mp found
  have whole : timer.waits = timer.waits.take index ++ wait :: timer.waits.drop (index + 1) := by
    rw [← same, List.getElem_cons_drop, List.take_append_drop]
  have expired : (timer.expire index).waits =
      timer.waits.take index ++ { wait with status := .expired } :: timer.waits.drop (index + 1) := by
    unfold AsioTimer.expire
    dsimp only
    rw [List.modify_eq_take_cons_drop bound, same, waiting]
  rw [throttling, throttling, expired]
  conv => rhs; rw [whole]
  simp only [List.length_append, List.length_cons, List.countP_append, List.countP_cons, waiting]
  simp

theorem throttling_erase {timer : AsioTimer} {index : Nat} {wait : Wait} (isRunning : Bool)
    (found : timer.waits[index]? = some wait) :
    throttling ⟨isRunning, timer.waits.eraseIdx index⟩ < throttling timer := by
  obtain ⟨earlier, later, whole, erased, _⟩ := split_at found
  rw [throttling, throttling, erased, whole]
  simp only [List.length_append, List.length_cons, List.countP_append, List.countP_cons]
  omega

theorem unmarshalled_read (received : Received μ) (unmarshalled : received.isUnmarshalled = true)
    (reader : Nat) (pooled : PooledSession μ) :
    ∃ throttleTimer, (pooled.handleRead .success reader received).session =
      { pooled.session with
        marshaller := received.marshaller
        posted := pooled.session.posted ++ received.calls
        throttleTimer } := by
  unfold PooledSession.handleRead PooledSession.messageBlockReceived
  rw [if_pos rfl]
  dsimp only
  rw [unmarshalled, if_neg (by decide)]
  split
  · unfold PooledSession.startThrottleTimer
    split
    · exact ⟨_, rfl⟩
    · exact ⟨_, rfl⟩
  · exact ⟨_, rfl⟩

end Reads

namespace Endpoint

variable {κ χ : Type} [PlainHeaderCoder κ]

/-- The application asks for a disconnect, or a read or a write fails. -/
def Label.disturbs : Label → Bool
  | .session .disconnect => true
  | .session .disconnectGracefully => true
  | .session (.writeCompleted _ error) => decide (error ≠ .success)
  | .read _ _ calls _ => calls.any fun handler => !handler.isSendMessage
  | .readFailed _ _ => true
  | _ => false

/-- Nobody disconnects, nothing fails, and the messages that are asked for are sent. -/
def Undisturbed (coders : DuplexCoders κ) (endpoint : Endpoint κ χ) (label : Label) : Prop :=
  Orderly coders endpoint label ∧ label.disturbs = false

instance (coders : DuplexCoders κ) (endpoint : Endpoint κ χ) (label : Label) :
    Decidable (Undisturbed coders endpoint label) :=
  inferInstanceAs (Decidable (_ ∧ _))

def GoesOn (endpoint : Endpoint κ χ) : Label → Prop
  | .session (.handler _) => True
  | .session (.writeCompleted _ error) => error = .success
  | .read _ chunk calls _ => chunk ≠ [] ∧ calls = []
  | .throttleTimerExpires index =>
      (endpoint.session.throttleTimer.waits[index]?).map Wait.status = some .waiting
  | .throttleTimerHandler _ => True
  | _ => False

/-- What a session, its callback and its asked messages are like while nothing disturbs it. -/
structure Calm (headerSize : Nat) (asked : List (MessageType × List UInt8)) (endpoint : Endpoint κ χ) :
    Prop where
  session : endpoint.session.Undisturbed
  unrequested : endpoint.connection.isDisconnectRequested = false
  undropped : endpoint.hasDropped = false
  outgoing : endpoint.outgoing headerSize = asked

section Steps

variable {coders : DuplexCoders κ} {packets : List MarshalledPacket} {last : coders.Keys}
  {callback : MarshallerCallback κ χ} {endpoint next : Endpoint κ χ} {label : Label}

/-- A message that fits a packet is accepted while the session may send and its queue is not full. -/
theorem Sends.accepts_posted (sends : endpoint.Sends coders packets last)
    (undisturbed : endpoint.session.Undisturbed) (fits : endpoint.session.overflowsNext = false)
    {mblock : BlockPointer} {messageType : MessageType} {rest : List PostedHandler}
    (posted : endpoint.session.posted = .sendMessage mblock messageType :: rest) :
    endpoint.session.accepts mblock messageType = true := by
  have sendable := sends.sendable mblock messageType (by rw [posted]; exact List.mem_cons_self ..)
  obtain ⟨outgoing, sameBlock, sameType, small⟩ := sendable
  obtain ⟨marshalled, coder, marshal, _⟩ := marshal_decodes endpoint.session.marshaller
    (by rw [show coders.sending endpoint.session.marshaller.packetCoder = last from
          sends.sending undisturbed.connected]
        exact sends.reachable) outgoing small
  rw [sameBlock, sameType] at marshal
  have next : endpoint.session.marshalsNext (.handler 0) = some (mblock, messageType) := by
    simp only [TcpSessionImpl.marshalsNext, posted, undisturbed.canSendMessage, if_true]
  refine TcpSessionImpl.marshals_accepts next ?_ fits
  change (endpoint.session.marshaller.marshal mblock.mblock messageType).succeeded = true
  rw [marshal]

omit [PlainHeaderCoder κ] in
theorem Step.records [PacketCoder κ] (step : Step callback endpoint label next) :
    next = { endpoint.record callback label with connection := next.connection } := by
  obtain ⟨_, moves⟩ := Option.ite_none_right_eq_some.mp step
  obtain ⟨connection, _, rfl⟩ := Option.map_eq_some_iff.mp moves
  rfl

theorem Step.of_session {label : TcpSessionImpl.Label}
    (step : Step callback endpoint (.session label) next) :
    TcpSessionImpl.Step endpoint.session label next.session := by
  obtain ⟨_, moves⟩ := Option.ite_none_right_eq_some.mp step.happens.2
  obtain ⟨pooled, advances, same⟩ := Option.map_eq_some_iff.mp moves
  obtain ⟨session, taken, stepped⟩ := Option.map_eq_some_iff.mp advances
  have moved := endpoint.session.advance_sound label session taken
  have kept : next.session = session := by rw [Endpoint.session, ← same, ← stepped]; rfl
  rw [kept]
  exact moved

theorem Step.read_session {index : Nat} {chunk : List UInt8} {calls : List PostedHandler}
    {isKarmaRemained : Bool} (step : Step callback endpoint (.read index chunk calls isKarmaRemained) next)
    (succeeded : (endpoint.unmarshal callback chunk).succeeded = true) :
    ∃ marshaller throttleTimer, next.session = { endpoint.session with
      marshaller, posted := endpoint.session.posted ++ calls, throttleTimer } := by
  obtain ⟨_, moves⟩ := Option.ite_none_right_eq_some.mp step.happens.2
  obtain ⟨pooled, reads, same⟩ := Option.map_eq_some_iff.mp moves
  obtain ⟨reader, _, handled⟩ := Option.map_eq_some_iff.mp reads
  obtain ⟨throttleTimer, session⟩ := unmarshalled_read
    (endpoint.received callback chunk calls isKarmaRemained) succeeded reader
    { endpoint.connection.pooled with readers := endpoint.connection.pooled.readers.eraseIdx index }
  rw [handled] at session
  exact ⟨_, throttleTimer, by rw [Endpoint.session, ← same]; exact session⟩

theorem Step.throttle_session {index : Nat}
    (step : Step callback endpoint (.throttleTimerHandler index) next) :
    ∃ throttleTimer, next.session = { endpoint.session with throttleTimer } ∧
      throttling throttleTimer < throttling endpoint.session.throttleTimer := by
  obtain ⟨_, moves⟩ := Option.ite_none_right_eq_some.mp step.happens.2
  obtain ⟨pooled, delivers, same⟩ := Option.map_eq_some_iff.mp moves
  obtain ⟨wait, found, delivered⟩ := Option.bind_eq_some_iff.mp delivers
  obtain ⟨error, _, handled⟩ := Option.map_eq_some_iff.mp delivered
  refine ⟨⟨false, endpoint.session.throttleTimer.waits.eraseIdx index⟩, ?_, throttling_erase false found⟩
  rw [Endpoint.session, ← same, ← handled]
  unfold PooledSession.throttleTimerHandler
  dsimp only
  split <;> rfl

theorem Step.expire_session {index : Nat}
    (step : Step callback endpoint (.throttleTimerExpires index) next) :
    next.session =
      { endpoint.session with throttleTimer := endpoint.session.throttleTimer.expire index } := by
  obtain ⟨_, moves⟩ := Option.ite_none_right_eq_some.mp step.happens.2
  obtain ⟨pooled, expires, same⟩ := Option.map_eq_some_iff.mp moves
  cases expires
  rw [Endpoint.session, ← same]
  rfl

/-- Four ways to come nearer to rest, each with what it leaves alone. -/
inductive Advances (endpoint next : Endpoint κ χ) : Prop where
  | handles : next.session.posted.length < endpoint.session.posted.length → Advances endpoint next
  | writes : next.session.posted.length = endpoint.session.posted.length →
      next.session.backlog < endpoint.session.backlog → Advances endpoint next
  | reads : next.session.posted.length = endpoint.session.posted.length →
      next.session.backlog = endpoint.session.backlog → next.written = endpoint.written →
      endpoint.read.length < next.read.length → Advances endpoint next
  | waits : next.session.posted.length = endpoint.session.posted.length →
      next.session.backlog = endpoint.session.backlog → next.written = endpoint.written →
      next.read = endpoint.read →
      throttling next.session.throttleTimer < throttling endpoint.session.throttleTimer →
      Advances endpoint next

omit [PlainHeaderCoder κ] in
theorem Advances.of_throttle {throttleTimer : AsioTimer}
    (session : next.session = { endpoint.session with throttleTimer }) (read : next.read = endpoint.read)
    (less : throttling throttleTimer < throttling endpoint.session.throttleTimer) :
    Advances endpoint next := by
  refine .waits ?_ ?_ ?_ read ?_
  · rw [session]
  · rw [session]
    rfl
  · rw [written, session]
    rfl
  · rw [session]
    exact less

variable {asked : List (MessageType × List UInt8)}

theorem Calm.accepts_next (calm : endpoint.Calm coders.headerSize asked)
    (sends : endpoint.Sends coders packets last) (orderly : Orderly coders endpoint label) :
    endpoint.refusesNext label = false := by
  cases label with
  | session label =>
      cases label with
      | handler now =>
          simp only [refusesNext]
          split
          · rename_i mblock messageType rest posted
            rw [sends.accepts_posted calm.session orderly posted]
            rfl
          · rfl
      | _ => rfl
  | _ => rfl

theorem Calm.stays_unrequested (calm : endpoint.Calm coders.headerSize asked)
    (step : Step callback endpoint label next) (quiet : label.disturbs = false)
    (succeeds : ∀ index chunk calls isKarmaRemained, label = .read index chunk calls isKarmaRemained →
      (endpoint.unmarshal callback chunk).succeeded = true) :
    next.connection.isDisconnectRequested = false := by
  cases step.happens.1 with
  | session taken kept same => exact kept.trans calm.unrequested
  | read outstanding reads marshaller requested same =>
      rw [requested, calm.unrequested, succeeds _ _ _ _ rfl]
      rfl
  | other unasked reads marshaller requested same =>
      rcases requested with kept | ⟨failed, _⟩
      · exact kept.trans calm.unrequested
      · cases label with
        | readFailed index error => cases quiet
        | _ => cases failed

theorem Calm.stays_undropped (calm : endpoint.Calm coders.headerSize asked)
    (step : Step callback endpoint label next) : next.hasDropped = false := by
  rw [step.records]
  cases label with
  | read index chunk calls isKarmaRemained =>
      simp only [record]
      rw [calm.undropped, calm.session.unreserved]
      rfl
  | _ => exact calm.undropped

/-- A calm endpoint stays calm, and comes nearer to rest unless the application asks for something. -/
theorem Calm.step (calm : endpoint.Calm coders.headerSize asked)
    (sends : endpoint.Sends coders packets last) (step : Step callback endpoint label next)
    (undisturbed : Undisturbed coders endpoint label)
    (succeeds : ∀ index chunk calls isKarmaRemained, label = .read index chunk calls isKarmaRemained →
      (endpoint.unmarshal callback chunk).succeeded = true) :
    next.Calm coders.headerSize (asked ++ postedMessages coders.headerSize label.asks) ∧
      (GoesOn endpoint label → Advances endpoint next) := by
  obtain ⟨orderly, calmly⟩ := undisturbed
  have outgoing : next.outgoing coders.headerSize =
      asked ++ postedMessages coders.headerSize label.asks := by
    rw [(step.outgoing coders.headerSize (coders.same_headerSize _)).2 (calm.accepts_next sends orderly),
      calm.outgoing]
  have unrequested := calm.stays_unrequested step calmly succeeds
  have undropped := calm.stays_undropped step
  have grows : ∀ {throttleTimer : AsioTimer},
      next.session = { endpoint.session with throttleTimer } → next.session.Undisturbed := by
    intro throttleTimer same
    rw [same]
    exact calm.session.frame rfl rfl calm.session.posted rfl rfl rfl rfl
  cases label with
  | session label =>
      have succeeded : label.Succeeds := by
        cases label with
        | disconnect => cases calmly
        | disconnectGracefully => cases calmly
        | writeCompleted index error =>
            change error = .success
            exact of_not_not (of_decide_eq_false calmly)
        | _ => trivial
      obtain ⟨kept, worksOff⟩ := calm.session.step step.of_session succeeded (by
        intro isHandler
        cases label with
        | handler now =>
            exact fun mblock messageType rest posted =>
              sends.accepts_posted calm.session orderly posted
        | _ => cases isHandler)
      refine ⟨⟨kept, unrequested, undropped, outgoing⟩, ?_⟩
      intro goesOn
      cases label with
      | handler now => exact .handles worksOff
      | writeCompleted index error => exact .writes (congrArg List.length worksOff.1) worksOff.2
      | _ => exact absurd goesOn id
  | read index chunk calls isKarmaRemained =>
      obtain ⟨marshaller, throttleTimer, session⟩ :=
        step.read_session (succeeds index chunk calls isKarmaRemained rfl)
      refine ⟨⟨?_, unrequested, undropped, outgoing⟩, ?_⟩
      · rw [session]
        refine calm.session.frame rfl rfl ?_ rfl rfl rfl rfl
        intro handler member
        rcases List.mem_append.mp member with earlier | asked
        · exact calm.session.posted handler earlier
        · simpa using List.any_eq_false.mp calmly handler asked
      · rintro ⟨something, rfl⟩
        refine .reads ?_ ?_ ?_ ?_
        · rw [session, List.append_nil]
        · rw [session]
          rfl
        · rw [written, session]
          rfl
        · rw [step.records]
          simp only [record, List.length_append]
          have := List.length_pos_iff.mpr something
          omega
  | readFailed index error => cases calmly
  | throttleTimerExpires index =>
      have session := step.expire_session
      refine ⟨⟨grows session, unrequested, undropped, outgoing⟩, ?_⟩
      intro waiting
      obtain ⟨wait, found, status⟩ := Option.map_eq_some_iff.mp waiting
      exact .of_throttle session (by rw [step.records]; rfl) (throttling_expire found status)
  | throttleTimerHandler index =>
      obtain ⟨throttleTimer, session, less⟩ := step.throttle_session
      refine ⟨⟨grows session, unrequested, undropped, outgoing⟩, ?_⟩
      intro _
      exact .of_throttle session (by rw [step.records]; rfl) less

end Steps

end Endpoint

end Sne.Session
