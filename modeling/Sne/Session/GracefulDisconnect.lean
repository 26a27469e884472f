import Sne.Session.SendOrder

/-!
# The graceful disconnect

`disconnectGracefully` starts the disconnect timer, and as long as the timer runs no
message is accepted and no disconnect closes the connection. When the timer runs out
it posts a disconnect, or waits on as long as something is left to write. The timer is
stopped again after its own callback, so the second wait is never served.
-/

namespace Sne.Session

open Sne.Base Sne.Sgp Sne.Library.Runs

set_option autoImplicit false

namespace TcpSessionImpl

variable {μ : Type} [Marshaller μ]

/-- The messages that were handed to `async_write` or wait in the queue. -/
def acceptedMessages (session : TcpSessionImpl μ) : List (List UInt8) :=
  handedMessages session.handed ++ session.outputQueue.map BlockPointer.bytes

/-- A wait is outstanding whose expiry runs the check of the disconnect timer. -/
def waitsToDisconnect (session : TcpSessionImpl μ) : Bool :=
  session.isDisconnectReserved &&
    session.disconnectTimer.waits.any fun wait => !wait.isAborted

/-- A disconnect is posted and no graceful one before it, so that it finds the timer stopped. -/
def closesPosted (session : TcpSessionImpl μ) : Bool :=
  !session.isDisconnectReserved &&
    ((session.posted.find? fun handler => !handler.isSendMessage).any PostedHandler.isDisconnect)

def staysArmed (session : TcpSessionImpl μ) : Bool :=
  session.waitsToDisconnect || session.closesPosted

def disconnectIsNext (session : TcpSessionImpl μ) : Bool :=
  session.posted.head?.any PostedHandler.isDisconnect

/-- When the timer of an open connection runs out, a disconnect is next: the one that it posts, or
an earlier one. -/
def TimesOutClosing (session : TcpSessionImpl μ) : Label → Prop
  | .disconnectTimerHandler index =>
      session.isConnected = true → session.isDisconnectReserved = true →
        session.disconnectIsNext = true ∨ session.posted.isEmpty = true ∧ session.timesOut index = true
  | _ => True

instance (session : TcpSessionImpl μ) (label : Label) : Decidable (session.TimesOutClosing label) :=
  match label with
  | .disconnectTimerHandler _ => inferInstanceAs (Decidable (_ → _))
  | .handler _ => .isTrue trivial
  | .sendMessage _ _ => .isTrue trivial
  | .disconnect => .isTrue trivial
  | .disconnectGracefully => .isTrue trivial
  | .writeCompleted _ _ => .isTrue trivial
  | .disconnectTimerExpires _ => .isTrue trivial

/-- While the connection is open the timer runs with its only wait, or it is stopped and a
disconnect is next. Before the graceful disconnect it may also have never been started. -/
inductive Armed (reserved : Bool) (session : TcpSessionImpl μ) : Prop where
  | closed : session.isConnected = false → Armed reserved session
  | waits (wait : Wait) : session.isDisconnectReserved = true → session.disconnectTimer.waits = [wait] →
      wait.isAborted = false → Armed reserved session
  | disconnects : session.isDisconnectReserved = false → session.disconnectIsNext = true →
      Armed reserved session
  | unstarted : reserved = false → session.isDisconnectReserved = false →
      session.disconnectTimer.waits = [] → Armed reserved session

section Arming

omit [Marshaller μ]

theorem disconnect_is_next {session : TcpSessionImpl μ} (next : session.disconnectIsNext = true) :
    ∃ rest, session.posted = .disconnect :: rest := by
  unfold disconnectIsNext at next
  cases posted : session.posted with
  | nil =>
      rw [posted] at next
      cases next
  | cons handler rest =>
      rw [posted] at next
      cases handler with
      | disconnect => exact ⟨rest, rfl⟩
      | disconnectGracefully => cases next
      | sendMessage => cases next

theorem disconnect_is_next_append {session next : TcpSessionImpl μ} {added : List PostedHandler}
    (posted : next.posted = session.posted ++ added) (disconnects : session.disconnectIsNext = true) :
    next.disconnectIsNext = true := by
  rcases disconnect_is_next disconnects with ⟨rest, first⟩
  rw [disconnectIsNext, posted, first]
  rfl

theorem Armed.append {reserved : Bool} {session next : TcpSessionImpl μ} {added : List PostedHandler}
    (armed : session.Armed reserved) (isOpen : next.isSocketOpen = session.isSocketOpen)
    (timer : next.disconnectTimer = session.disconnectTimer)
    (posted : next.posted = session.posted ++ added) : next.Armed reserved := by
  have running : next.isDisconnectReserved = session.isDisconnectReserved :=
    congrArg AsioTimer.isRunning timer
  have waits : next.disconnectTimer.waits = session.disconnectTimer.waits :=
    congrArg AsioTimer.waits timer
  cases armed with
  | closed closed => exact .closed (isOpen.trans closed)
  | waits wait runs single live => exact .waits wait (running.trans runs) (waits.trans single) live
  | disconnects stopped next =>
      exact .disconnects (running.trans stopped) (disconnect_is_next_append posted next)
  | unstarted before stopped none => exact .unstarted before (running.trans stopped) (waits.trans none)

theorem Armed.staysArmed {session : TcpSessionImpl μ} (armed : session.Armed true)
    (connected : session.isConnected = true) : session.staysArmed = true := by
  unfold TcpSessionImpl.staysArmed
  rw [Bool.or_eq_true]
  cases armed with
  | closed closed => exact absurd (closed.symm.trans connected) Bool.false_ne_true
  | waits wait runs single live =>
      left
      rw [waitsToDisconnect, runs, single, List.any_cons, live]
      rfl
  | disconnects stopped next =>
      right
      rcases disconnect_is_next next with ⟨rest, posted⟩
      rw [closesPosted, stopped, posted]
      rfl
  | unstarted before => cases before

theorem Armed.guarded {session : TcpSessionImpl μ} (armed : session.Armed true) : session.Guarded := by
  intro connected
  cases armed with
  | closed closed => exact absurd (closed.symm.trans connected) Bool.false_ne_true
  | waits wait runs single live => exact .inl runs
  | disconnects stopped next =>
      right
      rcases disconnect_is_next next with ⟨rest, posted⟩
      rw [disconnectsNext, posted]
      rfl
  | unstarted before => cases before

theorem disconnect_timer_armed {reserved : Bool} {session : TcpSessionImpl μ} {earlier later : List Wait}
    {wait : Wait} {error : ErrorCode} (waits : session.disconnectTimer.waits = earlier ++ wait :: later)
    (completed : wait.completion = some error) (armed : session.Armed reserved)
    (closing : session.TimesOutClosing (.disconnectTimerHandler earlier.length))
    {next : TcpSessionImpl μ} (handled : next = disconnectTimerHandler error { session with
      disconnectTimer := { session.disconnectTimer with waits := earlier ++ later } }) :
    next.Armed reserved := by
  rcases disconnect_timer_handler_control waits completed handled with ⟨isOpen, stopped, posted⟩
  cases armed with
  | closed closed => exact .closed (isOpen.trans closed)
  | disconnects _ disconnects => exact .disconnects stopped (disconnect_is_next_append posted disconnects)
  | unstarted _ _ none =>
      rw [none] at waits
      simp at waits
  | waits only runs single live =>
      cases connected : session.isConnected with
      | false => exact .closed (isOpen.trans connected)
      | true =>
          apply Armed.disconnects stopped
          rcases closing connected runs with disconnects | ⟨none, times⟩
          · exact disconnect_is_next_append posted disconnects
          · rw [disconnectIsNext, posted, List.isEmpty_iff.mp none, if_pos times]
            rfl

theorem Armed.weaken {session : TcpSessionImpl μ} (armed : session.Armed true) (reserved : Bool) :
    session.Armed reserved := by
  cases armed with
  | closed closed => exact .closed closed
  | waits wait runs single live => exact .waits wait runs single live
  | disconnects stopped next => exact .disconnects stopped next
  | unstarted before => cases before

/-- The handler of a graceful disconnect arms the session. -/
theorem graceful_handler_armed {reserved : Bool} {session : TcpSessionImpl μ} {rest : List PostedHandler}
    (posted : session.posted = .disconnectGracefully :: rest) (armed : session.Armed reserved) :
    (disconnectGracefullyHandler { session with posted := rest }).Armed true := by
  unfold disconnectGracefullyHandler
  split
  · rename_i runs
    cases armed with
    | closed closed => exact .closed closed
    | waits wait _ single live => exact .waits wait runs single live
    | disconnects stopped => exact absurd (stopped.symm.trans runs) Bool.false_ne_true
    | unstarted _ stopped => exact absurd (stopped.symm.trans runs) Bool.false_ne_true
  · rename_i stopped
    cases armed with
    | closed closed => exact .closed closed
    | waits _ runs => exact absurd runs stopped
    | disconnects _ next =>
        rcases disconnect_is_next next with ⟨others, first⟩
        rw [posted] at first
        cases first
    | unstarted _ _ none =>
        have started : session.disconnectTimer.once.waits = [⟨.once, .waiting⟩] := by
          simp only [AsioTimer.once, AsioTimer.asyncWait, none]
          rfl
        exact .waits ⟨.once, .waiting⟩ rfl started rfl

end Arming

/-- An armed session stays armed. -/
theorem Step.armed {reserved : Bool} {session next : TcpSessionImpl μ} {label : Label}
    (step : Step session label next) (armed : session.Armed reserved)
    (closing : session.TimesOutClosing label) : next.Armed reserved := by
  cases step with
  | sendMessage => exact armed.append rfl rfl rfl
  | disconnect => exact armed.append rfl rfl rfl
  | disconnectGracefully => exact armed.append rfl rfl rfl
  | disconnectTimerExpires index =>
      have aborted := AsioTimer.expire_aborted index session.disconnectTimer
      cases armed with
      | closed closed => exact .closed closed
      | disconnects stopped next => exact .disconnects stopped next
      | waits wait runs single live =>
          rw [single, List.map_singleton] at aborted
          rcases List.map_eq_singleton_iff.mp aborted with ⟨expired, waits, same⟩
          exact .waits expired runs waits (same.trans live)
      | unstarted before stopped none =>
          rw [none] at aborted
          exact .unstarted before stopped (List.map_eq_nil_iff.mp aborted)
  | writeCompleted earlier error outstanding =>
      rename_i write later
      have quiet := write_completed_quiet error write { session with writes := earlier ++ later }
      split at quiet
      · exact armed.append quiet.isSocketOpen quiet.disconnectTimer
          (quiet.posted.trans (List.append_nil _).symm)
      · exact armed.append quiet.isSocketOpen quiet.disconnectTimer quiet.posted
  | disconnectTimerHandler earlier waits completed =>
      exact disconnect_timer_armed waits completed armed closing rfl
  | handler now posted =>
      rename_i handler rest
      cases handler with
      | disconnect =>
          unfold runHandler disconnectHandler
          dsimp only
          split
          · rename_i reserved
            cases armed with
            | closed closed => exact .closed closed
            | waits wait runs single live => exact .waits wait runs single live
            | disconnects stopped => exact absurd (stopped.symm.trans reserved) Bool.false_ne_true
            | unstarted _ stopped => exact absurd (stopped.symm.trans reserved) Bool.false_ne_true
          · split <;> exact .closed rfl
      | disconnectGracefully => exact (graceful_handler_armed posted armed).weaken reserved
      | sendMessage mblock messageType =>
          have keeps := (send_message_handler_keeps mblock messageType { session with posted := rest }).1
          have stays := (send_message_handler_cases mblock messageType { session with posted := rest }).1
          have running : (sendMessageHandler mblock messageType { session with posted := rest
              }).isDisconnectReserved = session.isDisconnectReserved := congrArg AsioTimer.isRunning keeps
          have waits : (sendMessageHandler mblock messageType { session with posted := rest
              }).disconnectTimer.waits = session.disconnectTimer.waits := congrArg AsioTimer.waits keeps
          unfold runHandler
          dsimp only
          cases armed with
          | closed closed => exact .closed (stays.isConnected.trans closed)
          | waits wait runs single live =>
              exact .waits wait (running.trans runs) (waits.trans single) live
          | disconnects stopped next =>
              rcases disconnect_is_next next with ⟨others, first⟩
              rw [posted] at first
              cases first
          | unstarted before stopped none =>
              exact .unstarted before (running.trans stopped) (waits.trans none)

/-- An armed session accepts no message while it is open. -/
theorem Step.accepts_nothing {session next : TcpSessionImpl μ} {label : Label}
    (step : Step session label next) (armed : session.Armed true) (settled : session.QueueSettled)
    (connected : next.isConnected = true) : next.acceptedMessages = session.acceptedMessages := by
  rcases step.takes settled with takes | ⟨closed, _⟩
  · have none : (session.verdicts label).reduceOption = [] := by
      rcases verdicts_one session label with none | ⟨mblock, messageType, rest, posted, isOpen, one⟩
      · rw [none]
        rfl
      · rw [one, SendOrder.guarded_refuses posted isOpen armed.guarded]
        rfl
    rcases takes.handed with ⟨writes, handed, moved⟩
    rw [none, List.append_nil] at moved
    rw [acceptedMessages, acceptedMessages, handed, ← moved, handedMessages, handedMessages,
      List.flatMap_append, List.append_assoc]
    rfl
  · exact absurd (closed.symm.trans connected) Bool.false_ne_true

omit [Marshaller μ] in
theorem FirstOpened.armed {session : TcpSessionImpl μ} (fresh : session.FirstOpened) :
    session.Armed false := by
  apply Armed.unstarted rfl
  · rw [isDisconnectReserved, fresh.disconnectTimer]
  · rw [fresh.disconnectTimer]

/-- As long as a disconnect is next whenever the disconnect timer runs out, a connection on which the
handler of a graceful disconnect has run accepts no message until it is closed, and a wait of the
timer or a disconnect that closes it is outstanding. -/
theorem graceful_disconnect_stays_armed {first middle next last : TcpSessionImpl μ}
    {before after : List Label} {rest : List PostedHandler} {now : TimePoint} (fresh : first.FirstOpened)
    (earlier : Run (Where Step TimesOutClosing) first before middle)
    (posted : middle.posted = .disconnectGracefully :: rest)
    (graceful : Step middle (.handler now) next)
    (later : Run (Where Step TimesOutClosing) next after last) (isOpen : last.isConnected = true) :
    last.staysArmed = true ∧ last.acceptedMessages = next.acceptedMessages := by
  have started : middle.Armed false ∧ middle.QueueSettled := by
    apply earlier.invariant (fun _ session => session.Armed false ∧ session.QueueSettled)
    · exact ⟨fresh.armed, fresh.queueSettled⟩
    · intro history session label stepped state step
      exact ⟨step.1.armed state.1 step.2, step.1.queueSettled state.2⟩
  have armed : next.Armed true := by
    cases graceful with
    | handler _ oldest =>
        rw [posted] at oldest
        cases oldest
        exact graceful_handler_armed posted started.1
  have stays : (last.Armed true ∧ last.QueueSettled) ∧
      (last.isConnected = true → last.acceptedMessages = next.acceptedMessages) := by
    apply later.invariant (fun _ session => (session.Armed true ∧ session.QueueSettled) ∧
      (session.isConnected = true → session.acceptedMessages = next.acceptedMessages))
    · exact ⟨⟨armed, graceful.queueSettled started.2⟩, fun _ => rfl⟩
    · intro history session label stepped state step
      refine ⟨⟨step.1.armed state.1.1 step.2, step.1.queueSettled state.1.2⟩, ?_⟩
      intro connectedNow
      rw [step.1.accepts_nothing state.1.1 state.1.2 connectedNow]
      exact state.2 (step.1.was_connected connectedNow)
  exact ⟨stays.1.1.staysArmed isOpen, stays.2 isOpen⟩

section Concrete

open SendLedger

def opened : TcpSessionImpl (SgpMarshaller CsPacketCoder) := (create 0 smallMarshaller 0).sessionOpened

def writtenBefore : List Label :=
  [.writeCompleted 0 .success, .disconnectTimerExpires 0, .disconnectTimerHandler 0]

def writtenAfter : List Label :=
  [.disconnectTimerExpires 0, .disconnectTimerHandler 0, emptyMessage 1, .handler 0]

def reserving : TcpSessionImpl (SgpMarshaller CsPacketCoder) :=
  runHandler 0 (.sendMessage ⟨0, smallMarshaller.acquireSendBlock (.create 8)⟩ 21)
    { opened with posted := [.disconnectGracefully] }

theorem reserving_run : Run (Where Step TimesOutClosing) opened
    [emptyMessage 0, .disconnectGracefully, .handler 0] reserving := by
  have begins : Run (Where Step TimesOutClosing) opened [] opened := .start opened
  have posts :=
    (begins.next ⟨.sendMessage _ ⟨0, smallMarshaller.acquireSendBlock (.create 8)⟩ 21, trivial⟩).next
    ⟨.disconnectGracefully _, trivial⟩
  exact posts.next ⟨.handler 0 rfl, trivial⟩

theorem graceful_disconnect_stays_armed_written :
    ∃ next last, Step reserving (.handler 0) next ∧ Run (Where Step TimesOutClosing) next
      writtenBefore last ∧
      last.isConnected = true ∧ last.staysArmed = true ∧
      last.acceptedMessages = next.acceptedMessages := by
  have posted : reserving.posted = [.disconnectGracefully] := rfl
  have graceful : Step reserving (.handler 0) _ := .handler 0 posted
  have executes : (execute (guarded advance TimesOutClosing)
      (runHandler 0 .disconnectGracefully { reserving with posted := [] }) writtenBefore).map isConnected =
        some true := by
    decide +kernel
  rcases Run.of_guarded Step TimesOutClosing advance_sound executes with ⟨last, later, isOpen⟩
  exact ⟨_, last, graceful, later, isOpen, graceful_disconnect_stays_armed
    (created_first_opened 0 smallMarshaller 0) reserving_run posted graceful later isOpen⟩

/-- The timer runs out while a write is pending. It waits on but is stopped, so that nothing is left
to disconnect the connection, and the next message is accepted. -/
theorem graceful_disconnect_is_forgotten :
    ∃ next last, Run Step opened [emptyMessage 0, .disconnectGracefully, .handler 0] reserving ∧
      reserving.posted = [.disconnectGracefully] ∧ reserving.isConnected = true ∧
      Step reserving (.handler 0) next ∧ Run Step next writtenAfter last ∧ last.isConnected = true ∧
      last.staysArmed = false ∧ last.acceptedMessages ≠ next.acceptedMessages := by
  have posted : reserving.posted = [.disconnectGracefully] := rfl
  have executes : (execute advance
      (runHandler 0 .disconnectGracefully { reserving with posted := [] }) writtenAfter).map
        (fun last => (last.isConnected, last.staysArmed, last.acceptedMessages.length)) =
        some (true, false, 2) := by
    decide +kernel
  rcases Run.of_observed Step advance_sound executes with ⟨last, later, facts⟩
  simp only [Prod.mk.injEq] at facts
  refine ⟨_, last, reserving_run.unconditional, posted, rfl, .handler 0 posted, later,
    facts.1, facts.2.1, ?_⟩
  intro same
  have count := congrArg List.length same
  rw [facts.2.2] at count
  revert count
  decide +kernel

end Concrete

end TcpSessionImpl

end Sne.Session
