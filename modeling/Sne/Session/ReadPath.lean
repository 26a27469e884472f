import Sne.Session.StaleHandlers

/-!
# The read path

A connection reads when it is opened, when a read has been handled within the bandwidth
limit, and when the throttle timer has run out. The state is that of one connection from
`sessionOpened` to the close of its socket: it knows how many waits of the throttle timer
were left of earlier connections, and whether a failed read has asked for a disconnect.
-/

namespace Sne.Session

open Sne.Base Sne.Sgp Sne.Library.Runs

set_option autoImplicit false

namespace TcpSessionImpl

variable {μ : Type}

theorem gather_write_throttle (session : TcpSessionImpl μ) :
    session.gatherWrite.throttleTimer = session.throttleTimer := by
  rcases queue : session.outputQueue with _ | ⟨mblock, _ | ⟨second, others⟩⟩
  · simp only [gatherWrite, queue]
  · simp only [gatherWrite, queue]
    rfl
  · rcases gather_blocks_takes { session with outputBuffers := [], outputMemoryBlocks := [] }
      session.outputQueue (by simp [maxGatherWriteCount]) with ⟨taken, rest, _, _, _, gathers⟩
    rw [gather_write_many queue, gathers]
    rfl

theorem write_completed_throttle (error : ErrorCode) (write : AsyncWrite) (session : TcpSessionImpl μ) :
    (writeCompleted error write session).throttleTimer = session.throttleTimer := by
  have written : ∀ (blocks : List BlockPointer) (session : TcpSessionImpl μ),
      (blocks.foldl (gatherWritten error) session).throttleTimer = session.throttleTimer := by
    intro blocks
    induction blocks with
    | nil => exact fun _ => rfl
    | cons mblock blocks induction =>
        intro session
        rw [List.foldl_cons, induction, gatherWritten]
        split <;> rfl
  cases write with
  | single mblock =>
      simp only [writeCompleted, handleWrite, releaseBlock]
      split
      · exact gather_write_throttle (session.writeSucceeded mblock)
      · rfl
  | gather buffers =>
      simp only [writeCompleted, handleGatherWrite]
      split
      · rw [gather_write_throttle]
        exact written session.outputMemoryBlocks session
      · exact written session.outputMemoryBlocks session

theorem send_message_handler_throttle [Marshaller μ] (mblock : BlockPointer) (messageType : MessageType)
    (session : TcpSessionImpl μ) :
    (sendMessageHandler mblock messageType session).throttleTimer = session.throttleTimer := by
  have checked : ∀ session : TcpSessionImpl μ,
      session.checkOutputQueue.2.throttleTimer = session.throttleTimer := by
    intro session
    unfold checkOutputQueue
    dsimp only
    split
    · rfl
    · split <;> rfl
  unfold sendMessageHandler
  split
  · rfl
  · dsimp only
    split
    · rfl
    · split
      · split <;> exact checked _
      · rfl

theorem Step.throttle_kept [Marshaller μ] {session next : TcpSessionImpl μ} {label : Label}
    (step : Step session label next) (connected : next.isConnected = true) :
    next.throttleTimer = session.throttleTimer := by
  cases step with
  | sendMessage => rfl
  | disconnect => rfl
  | disconnectGracefully => rfl
  | disconnectTimerExpires => rfl
  | writeCompleted earlier error outstanding => exact write_completed_throttle error _ _
  | disconnectTimerHandler earlier waits completed =>
      simp only [TcpSessionImpl.disconnectTimerHandler, disconnectTimedOut]
      split
      · split <;> rfl
      · rfl
  | handler now posted =>
      rename_i handler rest
      cases handler with
      | disconnect =>
          unfold runHandler disconnectHandler at connected ⊢
          dsimp only at connected ⊢
          split at connected
          · rename_i reserved
            rw [if_pos reserved]
          · split at connected <;> cases connected
      | disconnectGracefully =>
          unfold runHandler disconnectGracefullyHandler
          dsimp only
          split <;> rfl
      | sendMessage mblock messageType => exact send_message_handler_throttle mblock messageType _

end TcpSessionImpl

/-- One connection of a session. -/
structure ReadingSession (μ : Type) where
  pooled : PooledSession μ
  staleWaits : Nat
  isDisconnectRequested : Bool := false

namespace ReadingSession

variable {μ : Type} [Marshaller μ]

def requestsDisconnect (label : PooledSession.Label μ) (next : PooledSession μ) : Bool :=
  match label with
  | .readCompleted _ error received =>
      (decide (error ≠ .success) || !received.isUnmarshalled) &&
        next.session.posted.getLast?.any PostedHandler.isDisconnect
  | _ => false

/-- The session is not opened again, and completions of reads and of the throttle timer are those of
the connection. Its waits come after those that were left. -/
def OfConnection (connection : ReadingSession μ) : PooledSession.Label μ → Prop
  | .opened _ => False
  | .readCompleted index _ _ => connection.pooled.readers[index]? = some connection.pooled.connection
  | .throttleTimerHandler index => connection.staleWaits ≤ index
  | _ => True

instance (connection : ReadingSession μ) (label : PooledSession.Label μ) :
    Decidable (connection.OfConnection label) :=
  match label with
  | .opened _ => .isFalse id
  | .readCompleted _ _ _ => inferInstanceAs (Decidable (_ = _))
  | .throttleTimerHandler _ => inferInstanceAs (Decidable (_ ≤ _))
  | .throttleTimerExpires _ => .isTrue trivial
  | .session _ => .isTrue trivial

def opened (pooled : PooledSession μ) : ReadingSession μ :=
  { pooled := pooled.sessionOpened true
    staleWaits := pooled.session.throttleTimer.waits.length }

def advance (connection : ReadingSession μ) (label : PooledSession.Label μ) :
    Option (ReadingSession μ) :=
  if connection.OfConnection label then
    (connection.pooled.advance label).map fun next =>
      { connection with
        pooled := next
        isDisconnectRequested := connection.isDisconnectRequested || requestsDisconnect label next }
  else
    none

def Step (connection : ReadingSession μ) (label : PooledSession.Label μ)
    (next : ReadingSession μ) : Prop :=
  connection.advance label = some next

def outstandingReads (connection : ReadingSession μ) : Nat :=
  connection.pooled.readers.count connection.pooled.connection

/-- The throttle timer runs with a wait of this connection whose expiry reads on. -/
def waitsToRead (connection : ReadingSession μ) : Bool :=
  connection.pooled.session.throttleTimer.isRunning &&
    (connection.pooled.session.throttleTimer.waits.drop connection.staleWaits).any
      fun wait => !wait.isAborted

/-- The connection reads, or is throttled, or a disconnect was requested for a failed read: one of the
three, and never two reads. -/
inductive ReadsOnce (connection : ReadingSession μ) : Prop where
  | reads : connection.outstandingReads = 1 → connection.waitsToRead = false →
      connection.isDisconnectRequested = false → ReadsOnce connection
  | throttled : connection.outstandingReads = 0 → connection.waitsToRead = true →
      connection.isDisconnectRequested = false → ReadsOnce connection
  | failed : connection.outstandingReads = 0 → connection.waitsToRead = false →
      connection.isDisconnectRequested = true → ReadsOnce connection

/-- Where the connection is between two handlers, with the waits that are its own. -/
inductive Phase (connection : ReadingSession μ) : Prop where
  | reads : connection.outstandingReads = 1 → connection.pooled.session.throttleTimer.isRunning = false →
      connection.pooled.session.throttleTimer.waits.length = connection.staleWaits →
      connection.isDisconnectRequested = false → Phase connection
  | throttled (wait : Wait) : connection.outstandingReads = 0 →
      connection.pooled.session.throttleTimer.isRunning = true →
      connection.pooled.session.throttleTimer.waits.drop connection.staleWaits = [wait] →
      wait.isAborted = false → connection.isDisconnectRequested = false → Phase connection
  | failed : connection.outstandingReads = 0 → connection.pooled.session.throttleTimer.isRunning = false →
      connection.pooled.session.throttleTimer.waits.length = connection.staleWaits →
      connection.isDisconnectRequested = true → Phase connection

section Phases

omit [Marshaller μ]

theorem Phase.readsOnce {connection : ReadingSession μ} (phase : connection.Phase) :
    connection.ReadsOnce := by
  cases phase with
  | reads one stopped _ unrequested =>
      apply ReadsOnce.reads one _ unrequested
      rw [waitsToRead, stopped]
      rfl
  | throttled wait none runs own live unrequested =>
      apply ReadsOnce.throttled none _ unrequested
      rw [waitsToRead, runs, own, List.any_cons, live]
      rfl
  | failed none stopped _ requested =>
      apply ReadsOnce.failed none _ requested
      rw [waitsToRead, stopped]
      rfl

theorem Phase.frame {connection next : ReadingSession μ} (phase : connection.Phase)
    (reads : next.outstandingReads = connection.outstandingReads)
    (timer : next.pooled.session.throttleTimer = connection.pooled.session.throttleTimer)
    (stale : next.staleWaits = connection.staleWaits)
    (requested : next.isDisconnectRequested = connection.isDisconnectRequested) : next.Phase := by
  cases phase with
  | reads one stopped left unrequested =>
      apply Phase.reads
      · rw [reads, one]
      · rw [timer, stopped]
      · rw [timer, stale, left]
      · rw [requested, unrequested]
  | throttled wait none runs own live unrequested =>
      apply Phase.throttled wait
      · rw [reads, none]
      · rw [timer, runs]
      · rw [timer, stale, own]
      · exact live
      · rw [requested, unrequested]
  | failed none stopped left wasRequested =>
      apply Phase.failed
      · rw [reads, none]
      · rw [timer, stopped]
      · rw [timer, stale, left]
      · rw [requested, wasRequested]

theorem expires_phase {connection : ReadingSession μ} (phase : connection.Phase) (index : Nat) :
    { connection with pooled := { connection.pooled with session := { connection.pooled.session with
      throttleTimer := connection.pooled.session.throttleTimer.expire index } } }.Phase := by
  have aborted := AsioTimer.expire_aborted index connection.pooled.session.throttleTimer
  have length : (connection.pooled.session.throttleTimer.expire index).waits.length =
      connection.pooled.session.throttleTimer.waits.length := by
    have same := congrArg List.length aborted
    rw [List.length_map, List.length_map] at same
    exact same
  cases phase with
  | reads one stopped left unrequested => exact .reads one stopped (length.trans left) unrequested
  | failed none stopped left requested => exact .failed none stopped (length.trans left) requested
  | throttled wait none runs own live unrequested =>
      have flags := congrArg (List.drop connection.staleWaits) aborted
      rw [← List.map_drop, ← List.map_drop, own, List.map_singleton] at flags
      rcases List.map_eq_singleton_iff.mp flags with ⟨expired, waits, same⟩
      exact .throttled expired none runs waits (same.trans live) unrequested

theorem requests_disconnect (index : Nat) {error : ErrorCode} {received : Received μ}
    {next : PooledSession μ}
    (fails : error ≠ .success ∨ received.isUnmarshalled = false) (earlier : List PostedHandler)
    (posted : next.session.posted = earlier ++ [.disconnect]) :
    requestsDisconnect (.readCompleted index error received) next = true := by
  simp only [requestsDisconnect]
  rw [posted, List.getLast?_append, Bool.and_eq_true, Bool.or_eq_true, decide_eq_true_eq]
  refine ⟨?_, rfl⟩
  apply fails.imp_right
  intro unmarshalled
  rw [unmarshalled]
  rfl

/-- A read that is handled with a success asks for no disconnect. -/
theorem requests_nothing (index : Nat) {received : Received μ} {next : PooledSession μ}
    (unmarshalled : received.isUnmarshalled = true) :
    requestsDisconnect (.readCompleted index .success received) next = false := by
  simp only [requestsDisconnect]
  rw [unmarshalled]
  rfl

theorem read_phase {connection : ReadingSession μ} {index : Nat} {error : ErrorCode}
    {received : Received μ}
    (phase : connection.Phase)
    (found : connection.pooled.readers[index]? = some connection.pooled.connection)
    {next : PooledSession μ} (handled : next = PooledSession.handleRead error connection.pooled.connection
      received { connection.pooled with readers := connection.pooled.readers.eraseIdx index }) :
    { connection with
      pooled := next
      isDisconnectRequested := connection.isDisconnectRequested ||
        requestsDisconnect (.readCompleted index error received) next }.Phase := by
  rcases split_at found with ⟨earlier, later, readers, remaining, _⟩
  have counted : connection.outstandingReads =
      (earlier ++ later).count connection.pooled.connection + 1 := by
    rw [outstandingReads, readers, List.count_append, List.count_append, List.count_cons_self]
    omega
  cases phase with
  | throttled _ none => omega
  | failed none => omega
  | reads one stopped left unrequested =>
      have none : (earlier ++ later).count connection.pooled.connection = 0 := by omega
      rw [unrequested, Bool.false_or]
      rw [remaining] at handled
      by_cases succeeded : error = .success
      · rw [PooledSession.handleRead, if_pos succeeded, PooledSession.messageBlockReceived] at handled
        dsimp only at handled
        subst succeeded
        cases unmarshalled : received.isUnmarshalled with
        | false =>
            rw [unmarshalled, if_pos (by rfl)] at handled
            subst handled
            exact .failed none stopped left (requests_disconnect index (.inr unmarshalled) _ rfl)
        | true =>
            rw [unmarshalled, if_neg (by decide)] at handled
            cases karma : received.isKarmaRemained with
            | false =>
                rw [karma, if_pos (by rfl)] at handled
                have started : next = { connection.pooled with
                    readers := earlier ++ later
                    session := { connection.pooled.session with
                      marshaller := received.marshaller
                      posted := connection.pooled.session.posted ++ received.calls
                      throttleTimer := connection.pooled.session.throttleTimer.once }
                    posters := connection.pooled.posters ++
                      List.replicate received.calls.length connection.pooled.connection } := by
                  rw [handled, PooledSession.startThrottleTimer]
                  exact if_neg (by rw [PooledSession.postAll, stopped]; exact Bool.false_ne_true)
                subst started
                apply Phase.throttled ⟨.once, .waiting⟩
                · exact none
                · rfl
                · simp only [AsioTimer.once, AsioTimer.asyncWait]
                  rw [List.drop_left']
                  rw [List.length_map, left]
                · rfl
                · exact requests_nothing index unmarshalled
            | true =>
                rw [karma, if_neg (by decide)] at handled
                subst handled
                apply Phase.reads
                · have again : (earlier ++ later ++ [connection.pooled.connection]).count
                      connection.pooled.connection = 1 := by
                    rw [List.count_append, none, List.count_singleton_self]
                  exact again
                · exact stopped
                · exact left
                · exact requests_nothing index unmarshalled
      · rw [PooledSession.handleRead, if_neg succeeded] at handled
        subst handled
        exact .failed none stopped left (requests_disconnect index (.inl succeeded) _ rfl)

theorem throttle_phase {connection : ReadingSession μ} {index : Nat} {wait : Wait} {error : ErrorCode}
    (phase : connection.Phase) (own : connection.staleWaits ≤ index)
    (found : connection.pooled.session.throttleTimer.waits[index]? = some wait)
    (completed : wait.completion = some error) :
    { connection with pooled := PooledSession.throttleTimerHandler error { connection.pooled with
      session := { connection.pooled.session with
        throttleTimer := { connection.pooled.session.throttleTimer with
          waits := connection.pooled.session.throttleTimer.waits.eraseIdx index } } } }.Phase := by
  have bound := (List.getElem?_eq_some_iff.mp found).1
  cases phase with
  | reads _ _ left => omega
  | failed _ _ left => omega
  | throttled only none runs single live unrequested =>
      have length := congrArg List.length single
      rw [List.length_drop, List.length_singleton] at length
      have same : wait = only := by
        have dropped : (connection.pooled.session.throttleTimer.waits.drop connection.staleWaits)[
            index - connection.staleWaits]? = some wait := by
          rw [List.getElem?_drop, Nat.add_sub_cancel' own, found]
        have first : index - connection.staleWaits = 0 := by omega
        rw [single, first, List.getElem?_cons_zero] at dropped
        exact (Option.some.inj dropped).symm
      rw [same] at completed
      have succeeded : error = .success := Wait.completion_unaborted completed live
      have reads : PooledSession.throttleTimerHandler error { connection.pooled with
          session := { connection.pooled.session with
            throttleTimer := { connection.pooled.session.throttleTimer with
              waits := connection.pooled.session.throttleTimer.waits.eraseIdx index } } } =
          { connection.pooled with
            readers := connection.pooled.readers ++ [connection.pooled.connection]
            session := { connection.pooled.session with
              throttleTimer := ⟨false,
                connection.pooled.session.throttleTimer.waits.eraseIdx index⟩ } } := by
        rw [PooledSession.throttleTimerHandler, succeeded]
        simp only [runs]
        rfl
      rw [reads]
      apply Phase.reads
      · have again : (connection.pooled.readers ++ [connection.pooled.connection]).count
            connection.pooled.connection = 1 := by
          rw [List.count_append, List.count_singleton_self]
          rw [outstandingReads] at none
          omega
        exact again
      · rfl
      · have remains : (connection.pooled.session.throttleTimer.waits.eraseIdx index).length =
            connection.staleWaits := by
          rw [List.length_eraseIdx_of_lt bound]
          omega
        exact remains
      · exact unrequested

theorem read_connected (error : ErrorCode) (reader : Nat) (received : Received μ)
    (pooled : PooledSession μ) :
    (pooled.handleRead error reader received).session.isConnected = pooled.session.isConnected := by
  unfold PooledSession.handleRead PooledSession.messageBlockReceived PooledSession.startThrottleTimer
  split
  · dsimp only
    split
    · rfl
    · split
      · split <;> rfl
      · rfl
  · rfl

theorem throttle_connected (error : ErrorCode) (pooled : PooledSession μ) :
    (pooled.throttleTimerHandler error).session.isConnected = pooled.session.isConnected := by
  unfold PooledSession.throttleTimerHandler
  dsimp only
  split <;> rfl

end Phases

/-- A connection that is open was open before the step, and is in one of its phases. -/
theorem step_phase {connection next : ReadingSession μ} {label : PooledSession.Label μ}
    (phase : connection.pooled.session.isConnected = true → connection.Phase)
    (step : Step connection label next) (connected : next.pooled.session.isConnected = true) :
    connection.pooled.session.isConnected = true ∧ next.Phase := by
  unfold Step advance at step
  split at step
  · rename_i ofConnection
    rcases Option.map_eq_some_iff.mp step with ⟨pooled, advances, same⟩
    cases label with
    | opened => exact absurd ofConnection id
    | readCompleted index error received =>
        rcases Option.map_eq_some_iff.mp advances with ⟨reader, found, handled⟩
        have current : reader = connection.pooled.connection :=
          Option.some.inj (found.symm.trans ofConnection)
        rw [current] at handled
        have wasConnected : connection.pooled.session.isConnected = true := by
          rw [← same, ← handled] at connected
          dsimp only at connected
          rw [read_connected] at connected
          exact connected
        refine ⟨wasConnected, ?_⟩
        rw [← same]
        exact read_phase (phase wasConnected) ofConnection handled.symm
    | throttleTimerExpires index =>
        cases advances
        have wasConnected : connection.pooled.session.isConnected = true := by
          rw [← same] at connected
          exact connected
        refine ⟨wasConnected, ?_⟩
        rw [← same]
        exact (expires_phase (phase wasConnected) index).frame rfl rfl rfl (Bool.or_false _)
    | throttleTimerHandler index =>
        rcases Option.bind_eq_some_iff.mp advances with ⟨wait, found, delivered⟩
        rcases Option.map_eq_some_iff.mp delivered with ⟨error, completed, handled⟩
        have wasConnected : connection.pooled.session.isConnected = true := by
          rw [← same, ← handled] at connected
          dsimp only at connected
          rw [throttle_connected] at connected
          exact connected
        refine ⟨wasConnected, ?_⟩
        rw [← same, ← handled]
        exact (throttle_phase (phase wasConnected) ofConnection found completed).frame rfl rfl rfl
          (Bool.or_false _)
    | session label =>
        rcases Option.map_eq_some_iff.mp advances with ⟨session, moves, stepped⟩
        have taken := connection.pooled.session.advance_sound label session moves
        have connectedNow : session.isConnected = true := by
          rw [← same, ← stepped] at connected
          exact connected
        have wasConnected := taken.was_connected connectedNow
        refine ⟨wasConnected, ?_⟩
        rw [← same, ← stepped]
        exact (phase wasConnected).frame rfl (taken.throttle_kept connectedNow) rfl (Bool.or_false _)
  · cases step

/-- No read is outstanding for a connection that is yet to come. -/
def ReadersKnown (pooled : PooledSession μ) :
    Prop := ∀ reader ∈ pooled.readers, reader ≤ pooled.connection

section Readers

omit [Marshaller μ]

theorem read_message_known {pooled : PooledSession μ} (known : ReadersKnown pooled) :
    ReadersKnown pooled.readMessage := by
  intro reader member
  rcases List.mem_append.mp member with earlier | last
  · exact known reader earlier
  · exact Nat.le_of_eq (List.mem_singleton.mp last)

theorem read_known {pooled : PooledSession μ} (known : ReadersKnown pooled) (error : ErrorCode)
    (reader : Nat)
    (received : Received μ) : ReadersKnown (pooled.handleRead error reader received) := by
  unfold PooledSession.handleRead PooledSession.messageBlockReceived PooledSession.startThrottleTimer
  split
  · dsimp only
    split
    · exact known
    · split
      · split <;> exact known
      · apply read_message_known
        exact known
  · exact known

end Readers

theorem step_readers_known {pooled next : PooledSession μ} {label : PooledSession.Label μ}
    (known : ReadersKnown pooled) (step : PooledSession.Step pooled label next) : ReadersKnown next := by
  unfold PooledSession.Step at step
  cases label with
  | opened onConnected =>
      simp only [PooledSession.advance] at step
      split at step
      · cases step
      · cases step
        have later : ReadersKnown { pooled with
            session := pooled.session.sessionOpened
            connection := pooled.connection + 1 } :=
          fun reader member => Nat.le_succ_of_le (known reader member)
        unfold PooledSession.sessionOpened
        dsimp only
        split
        · exact read_message_known later
        · exact later
  | readCompleted index error received =>
      rcases Option.map_eq_some_iff.mp step with ⟨reader, _, handled⟩
      rw [← handled]
      apply read_known
      intro other member
      exact known other (List.mem_of_mem_eraseIdx member)
  | throttleTimerExpires index =>
      cases step
      exact known
  | throttleTimerHandler index =>
      rcases Option.bind_eq_some_iff.mp step with ⟨wait, _, delivered⟩
      rcases Option.map_eq_some_iff.mp delivered with ⟨error, _, handled⟩
      rw [← handled, PooledSession.throttleTimerHandler]
      dsimp only
      split
      · exact read_message_known known
      · exact known
  | session label =>
      rcases Option.map_eq_some_iff.mp step with ⟨session, _, stepped⟩
      rw [← stepped]
      exact known

section Concrete

open SendLedger

def throttling : List (PooledSession.Label (SgpMarshaller CsPacketCoder)) :=
  [.readCompleted 0 .success { marshaller := smallMarshaller, isKarmaRemained := false },
    .throttleTimerExpires 0, .throttleTimerHandler 0,
    .readCompleted 0 .other { marshaller := smallMarshaller }]

end Concrete

end ReadingSession

end Sne.Session
