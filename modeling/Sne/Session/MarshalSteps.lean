import Sne.Session.SendOrder

/-!
# What a step does to the marshaller

The writing side uses the marshaller in one place: the handler of a message that may be
written marshals it. Apart from that the marshaller changes only when the connection is
closed. A step posts no message but that of `sendMessage`.
-/

namespace Sne.Session

open Sne.Base Sne.Sgp Sne.Library.Runs

set_option autoImplicit false

namespace TcpSessionImpl

variable {μ : Type} [Marshaller μ]

/-- The message that the step marshals. -/
def marshalsNext (session : TcpSessionImpl μ) : Label → Option (BlockPointer × MessageType)
  | .handler _ =>
      match session.posted with
      | .sendMessage mblock messageType :: _ =>
          if session.canSendMessage then some (mblock, messageType) else none
      | _ => none
  | _ => none

def marshallerAfter (session : TcpSessionImpl μ) (label : Label) : μ :=
  match session.marshalsNext label with
  | none => session.marshaller
  | some (mblock, messageType) =>
      (Marshaller.marshal mblock.mblock messageType session.marshaller).2.2

theorem send_message_handler_marshaller (mblock : BlockPointer) (messageType : MessageType)
    (session : TcpSessionImpl μ) :
    (sendMessageHandler mblock messageType session).marshaller =
      if session.canSendMessage then
        (Marshaller.marshal mblock.mblock messageType session.marshaller).2.2
      else
        session.marshaller := by
  unfold sendMessageHandler
  cases session.canSendMessage with
  | false => rfl
  | true =>
      have quiet := check_output_queue_quiet { session with
        marshaller := (Marshaller.marshal mblock.mblock messageType session.marshaller).2.2 }
      rw [if_pos rfl]
      dsimp only
      split
      · rename_i blocked
        cases blocked
      · split
        · rfl
        · split
          · split <;> exact quiet.marshaller
          · rfl

theorem Step.marshaller_after {session next : TcpSessionImpl μ} {label : Label}
    (step : Step session label next) (connected : next.isConnected = true) :
    next.marshaller = session.marshallerAfter label := by
  cases step with
  | sendMessage => rfl
  | disconnect => rfl
  | disconnectGracefully => rfl
  | disconnectTimerExpires => rfl
  | writeCompleted earlier error outstanding =>
      rw [(write_completed_quiet error _ _).marshaller]
      split <;> rfl
  | disconnectTimerHandler earlier waits completed => exact disconnect_timer_marshaller _ _
  | handler now posted =>
      rename_i handler rest
      cases handler with
      | disconnect =>
          have nothing : session.marshallerAfter (.handler now) = session.marshaller := by
            simp only [marshallerAfter, marshalsNext, posted]
          rw [nothing]
          unfold runHandler disconnectHandler at connected ⊢
          dsimp only at connected ⊢
          split
          · rfl
          · rename_i unreserved
            rw [if_neg unreserved] at connected
            split at connected <;> cases connected
      | disconnectGracefully =>
          have nothing : session.marshallerAfter (.handler now) = session.marshaller := by
            simp only [marshallerAfter, marshalsNext, posted]
          rw [nothing]
          simp only [runHandler, disconnectGracefullyHandler]
          split <;> rfl
      | sendMessage mblock messageType =>
          rw [runHandler, send_message_handler_marshaller]
          have same : { session with posted := rest }.canSendMessage = session.canSendMessage := rfl
          simp only [same, marshallerAfter, marshalsNext, posted]
          cases session.canSendMessage <;> rfl

/-- What the step accepts is what it marshals, unless it refuses it. -/
theorem verdicts_marshals (session : TcpSessionImpl μ) (label : Label) :
    (session.verdicts label).reduceOption =
      match session.marshalsNext label with
      | none => []
      | some (mblock, messageType) => (session.verdict mblock messageType).toList := by
  cases label with
  | handler now =>
      unfold verdicts marshalsNext
      dsimp only
      cases session.posted with
      | nil => rfl
      | cons handler rest =>
          cases handler with
          | disconnect => rfl
          | disconnectGracefully => rfl
          | sendMessage mblock messageType =>
              dsimp only
              cases can : session.canSendMessage with
              | true =>
                  have connected : session.isConnected = true := by
                    rw [canSendMessage, Bool.and_eq_true] at can
                    exact can.1
                  rw [if_pos connected, if_pos rfl]
                  dsimp only
                  cases session.verdict mblock messageType <;> rfl
              | false =>
                  have refused : session.verdict mblock messageType = none := by
                    apply verdict_refused
                    rw [accepts, can]
                    rfl
                  rw [refused]
                  split <;> rfl
  | sendMessage => rfl
  | disconnect => rfl
  | disconnectGracefully => rfl
  | writeCompleted => rfl
  | disconnectTimerExpires => rfl
  | disconnectTimerHandler => rfl

omit [Marshaller μ] in
/-- A message is marshalled by its handler, on an open connection. -/
theorem marshals_posted {session : TcpSessionImpl μ} {label : Label} {mblock : BlockPointer}
    {messageType : MessageType} (marshals : session.marshalsNext label = some (mblock, messageType)) :
    session.canSendMessage = true ∧ session.isConnected = true ∧
      ∃ now rest, label = .handler now ∧ session.posted = .sendMessage mblock messageType :: rest := by
  cases label with
  | handler now =>
      unfold marshalsNext at marshals
      dsimp only at marshals
      split at marshals
      · rename_i other otherType rest posted
        split at marshals
        · rename_i can
          cases marshals
          have connected : session.isConnected = true := by
            rw [canSendMessage, Bool.and_eq_true] at can
            exact can.1
          exact ⟨can, connected, now, rest, rfl, posted⟩
        · cases marshals
      · cases marshals
  | sendMessage => cases marshals
  | disconnect => cases marshals
  | disconnectGracefully => cases marshals
  | writeCompleted => cases marshals
  | disconnectTimerExpires => cases marshals
  | disconnectTimerHandler => cases marshals

/-- What is marshalled is accepted, unless the queue is too long for it. -/
theorem marshals_accepts {session : TcpSessionImpl μ} {label : Label} {mblock : BlockPointer}
    {messageType : MessageType} (marshals : session.marshalsNext label = some (mblock, messageType))
    (succeeds : (Marshaller.marshal mblock.mblock messageType session.marshaller).1 = true)
    (fits : session.overflowsNext = false) : session.accepts mblock messageType = true := by
  rcases marshals_posted marshals with ⟨can, _, _, rest, _, posted⟩
  simp only [overflowsNext, posted, overflows, can, succeeds, Bool.true_and] at fits
  rw [accepts, can, succeeds]
  cases pended : session.isWritePended with
  | false => rfl
  | true =>
      rw [pended, Bool.true_and, Bool.not_eq_false'] at fits
      rw [fits]
      rfl

section Posted

/-- The session has posted nothing, or has posted a disconnect itself. -/
def PostsDisconnects (session next : TcpSessionImpl μ) : Prop :=
  ∃ added, next.posted = session.posted ++ added ∧ ∀ handler ∈ added, handler.isSendMessage = false

omit [Marshaller μ] in
theorem PostsDisconnects.of_same {session next : TcpSessionImpl μ}
    (same : next.posted = session.posted) :
    PostsDisconnects session next :=
  ⟨[], by rw [same, List.append_nil], fun _ none => absurd none List.not_mem_nil⟩

omit [Marshaller μ] in
theorem PostsDisconnects.of_concat {session next : TcpSessionImpl μ} (last : PostedHandler)
    (same : next.posted = session.posted ++ [last]) (disconnects : last.isSendMessage = false) :
    PostsDisconnects session next := by
  refine ⟨[last], same, ?_⟩
  intro handler member
  rw [List.mem_singleton.mp member]
  exact disconnects

theorem send_message_handler_posts_disconnects (mblock : BlockPointer) (messageType : MessageType)
    (session : TcpSessionImpl μ) :
    PostsDisconnects session (sendMessageHandler mblock messageType session) := by
  unfold sendMessageHandler
  split
  · exact .of_same rfl
  · dsimp only
    split
    · exact .of_concat .disconnectGracefully rfl rfl
    · split
      · have quiet := check_output_queue_quiet { session with
          marshaller := (Marshaller.marshal mblock.mblock messageType session.marshaller).2.2 }
        split
        · exact .of_same quiet.posted
        · refine .of_concat .disconnect ?_ rfl
          exact congrArg (fun posted => posted ++ [PostedHandler.disconnect]) quiet.posted
      · exact .of_same rfl

theorem run_handler_posts_disconnects (now : TimePoint) (handler : PostedHandler)
    (session : TcpSessionImpl μ) : PostsDisconnects session (runHandler now handler session) := by
  cases handler with
  | disconnect =>
      simp only [runHandler, disconnectHandler]
      split
      · exact .of_same rfl
      · split <;> exact .of_same rfl
  | disconnectGracefully =>
      simp only [runHandler, disconnectGracefullyHandler]
      split <;> exact .of_same rfl
  | sendMessage mblock messageType => exact send_message_handler_posts_disconnects mblock messageType _

def runsNext (session : TcpSessionImpl μ) : Label → List PostedHandler
  | .handler _ => session.posted.take 1
  | _ => []

def Label.posts : Label → List PostedHandler
  | .sendMessage mblock messageType => [.sendMessage mblock messageType]
  | _ => []

/-- Handlers run in the order of their posts. The messages among them are those that were sent. -/
theorem Step.runs_posted {session next : TcpSessionImpl μ} {label : Label}
    (step : Step session label next) :
    ∃ added, session.posted ++ label.posts ++ added = session.runsNext label ++ next.posted ∧
      ∀ handler ∈ added, handler.isSendMessage = false := by
  have adds : PostsDisconnects session next → ∃ added,
      session.posted ++ [] ++ added = [] ++ next.posted ∧
        ∀ handler ∈ added, handler.isSendMessage = false := by
    rintro ⟨added, posted, disconnects⟩
    exact ⟨added, by rw [posted, List.append_nil, List.nil_append], disconnects⟩
  cases step with
  | sendMessage mblock messageType =>
      exact ⟨[], List.append_nil _, fun _ none => absurd none List.not_mem_nil⟩
  | disconnect => exact adds (.of_concat .disconnect rfl rfl)
  | disconnectGracefully => exact adds (.of_concat .disconnectGracefully rfl rfl)
  | disconnectTimerExpires => exact adds (.of_same rfl)
  | writeCompleted earlier error outstanding =>
      rename_i write later
      have quiet := write_completed_quiet error write { session with writes := earlier ++ later }
      apply adds
      split at quiet
      · exact .of_same quiet.posted
      · exact .of_concat .disconnect quiet.posted rfl
  | disconnectTimerHandler earlier waits completed =>
      apply adds
      simp only [TcpSessionImpl.disconnectTimerHandler, disconnectTimedOut]
      split
      · split
        · exact .of_same rfl
        · exact .of_concat .disconnect rfl rfl
      · exact .of_same rfl
  | handler now posted =>
      rename_i handler rest
      obtain ⟨added, later, disconnects⟩ :=
        run_handler_posts_disconnects now handler { session with posted := rest }
      refine ⟨added, ?_, disconnects⟩
      have oldest : session.runsNext (.handler now) = [handler] := by
        rw [runsNext, posted]
        rfl
      rw [later, oldest, posted]
      exact congrArg (· ++ added) (List.append_nil (handler :: rest))

/-- What is posted after a step was posted before it, or is no message, or is the message of the step.
-/
theorem Step.posted_messages {session next : TcpSessionImpl μ} {label : Label}
    (step : Step session label next) :
    ∀ handler ∈ next.posted, handler ∈ session.posted ∨ handler.isSendMessage = false ∨
      ∃ mblock messageType, label = .sendMessage mblock messageType ∧
        handler = .sendMessage mblock messageType := by
  intro handler member
  obtain ⟨added, together, disconnects⟩ := step.runs_posted
  have among : handler ∈ session.posted ++ label.posts ++ added := by
    rw [together]
    exact List.mem_append_right _ member
  rcases List.mem_append.mp among with here | last
  · rcases List.mem_append.mp here with earlier | sent
    · exact .inl earlier
    · cases label with
      | sendMessage mblock messageType =>
          exact .inr (.inr ⟨mblock, messageType, rfl, List.mem_singleton.mp sent⟩)
      | handler => exact absurd sent List.not_mem_nil
      | disconnect => exact absurd sent List.not_mem_nil
      | disconnectGracefully => exact absurd sent List.not_mem_nil
      | writeCompleted => exact absurd sent List.not_mem_nil
      | disconnectTimerExpires => exact absurd sent List.not_mem_nil
      | disconnectTimerHandler => exact absurd sent List.not_mem_nil
  · exact .inr (.inl (disconnects handler last))

end Posted

end TcpSessionImpl

end Sne.Session
