import Sne.Session.MessageFlow

/-!
# What one end sends

A message of the application is posted, and it is accepted or refused when its handler
runs. What an end has accepted, followed by what is still posted, grows by the messages
that it is asked to send, in their order. A message that is refused is missing from then on.
-/

namespace Sne.Session

open Sne.Base Sne.Sgp Sne.Library.Runs

set_option autoImplicit false

/-- The message of a handler, without the header of its block. -/
def PostedHandler.message (headerSize : Nat) : PostedHandler → Option (MessageType × List UInt8)
  | .sendMessage mblock messageType => some (messageType, mblock.bytes.drop headerSize)
  | .disconnect => none
  | .disconnectGracefully => none

def postedMessages (headerSize : Nat) (handlers : List PostedHandler) :
    List (MessageType × List UInt8) :=
  handlers.filterMap (PostedHandler.message headerSize)

theorem posted_messages_append (headerSize : Nat) (handlers more : List PostedHandler) :
    postedMessages headerSize (handlers ++ more) =
      postedMessages headerSize handlers ++ postedMessages headerSize more :=
  List.filterMap_append

theorem posted_messages_none (headerSize : Nat) {handlers : List PostedHandler}
    (disconnects : ∀ handler ∈ handlers, handler.isSendMessage = false) :
    postedMessages headerSize handlers = [] := by
  rw [postedMessages, List.filterMap_eq_nil_iff]
  intro handler member
  cases handler with
  | sendMessage mblock messageType => cases disconnects _ member
  | disconnect => rfl
  | disconnectGracefully => rfl

namespace Endpoint

variable {κ χ : Type} [PacketCoder κ]

def outgoing (headerSize : Nat) (endpoint : Endpoint κ χ) : List (MessageType × List UInt8) :=
  endpoint.sent ++ postedMessages headerSize endpoint.session.posted

/-- The step runs the handler of a message that is not accepted. -/
def refusesNext (endpoint : Endpoint κ χ) : Label → Bool
  | .session (.handler _) =>
      match endpoint.session.posted with
      | .sendMessage mblock messageType :: _ => !endpoint.session.accepts mblock messageType
      | _ => false
  | _ => false

/-- What a step of the session accepts was posted. -/
theorem accepted_runs (headerSize : Nat) {endpoint : Endpoint κ χ}
    (sameHeaderSize : PacketCoder.getHeaderSize endpoint.coder = headerSize)
    (label : TcpSessionImpl.Label) :
    (endpoint.accepted label).Sublist (postedMessages headerSize (endpoint.session.runsNext label)) ∧
      (endpoint.refusesNext (.session label) = false →
        endpoint.accepted label = postedMessages headerSize (endpoint.session.runsNext label)) := by
  cases label with
  | handler now =>
      simp only [accepted, TcpSessionImpl.marshalsNext, TcpSessionImpl.runsNext, refusesNext]
      cases endpoint.session.posted with
      | nil => exact ⟨List.nil_sublist _, fun _ => rfl⟩
      | cons handler rest =>
          cases handler with
          | disconnect => exact ⟨List.nil_sublist _, fun _ => rfl⟩
          | disconnectGracefully => exact ⟨List.nil_sublist _, fun _ => rfl⟩
          | sendMessage mblock messageType =>
              dsimp only
              cases accepts : endpoint.session.accepts mblock messageType with
              | true =>
                  have can : endpoint.session.canSendMessage = true := by
                    rw [TcpSessionImpl.accepts, Bool.and_eq_true, Bool.and_eq_true] at accepts
                    exact accepts.1.1
                  rw [if_pos can]
                  simp only [accepts, if_true, sameHeaderSize]
                  exact ⟨List.Sublist.refl _, fun _ => rfl⟩
              | false =>
                  refine ⟨?_, fun refused => by cases refused⟩
                  split
                  · exact List.nil_sublist _
                  · rename_i marshals
                    split at marshals
                    · cases marshals
                      rw [if_neg (by rw [accepts]; exact Bool.false_ne_true)]
                      exact List.nil_sublist _
                    · cases marshals
  | sendMessage => exact ⟨List.nil_sublist _, fun _ => rfl⟩
  | disconnect => exact ⟨List.nil_sublist _, fun _ => rfl⟩
  | disconnectGracefully => exact ⟨List.nil_sublist _, fun _ => rfl⟩
  | writeCompleted => exact ⟨List.nil_sublist _, fun _ => rfl⟩
  | disconnectTimerExpires => exact ⟨List.nil_sublist _, fun _ => rfl⟩
  | disconnectTimerHandler => exact ⟨List.nil_sublist _, fun _ => rfl⟩

omit [PacketCoder κ] in
theorem outgoing_of_reads {calls : List PostedHandler} {endpoint next : Endpoint κ χ} (headerSize : Nat)
    (reads : OnlyReads calls endpoint.session next.session) (sent : next.sent = endpoint.sent) :
    next.outgoing headerSize = endpoint.outgoing headerSize ++ postedMessages headerSize calls := by
  obtain ⟨added, posted, disconnects⟩ := reads.posted
  rw [outgoing, sent, posted, posted_messages_append, posted_messages_append,
    posted_messages_none headerSize disconnects, List.append_nil, ← List.append_assoc]
  rfl

/-- The messages that the step is asked to send come last, and nothing is missing unless the step
refuses a message. -/
theorem Step.outgoing {callback : MarshallerCallback κ χ} {endpoint next : Endpoint κ χ} {label : Label}
    (headerSize : Nat) (sameHeaderSize : PacketCoder.getHeaderSize endpoint.coder = headerSize)
    (step : Step callback endpoint label next) :
    (next.outgoing headerSize).Sublist
        (endpoint.outgoing headerSize ++ postedMessages headerSize label.asks) ∧
      (endpoint.refusesNext label = false → next.outgoing headerSize =
        endpoint.outgoing headerSize ++ postedMessages headerSize label.asks) := by
  cases step.happens.1 with
  | session taken unrequested same =>
      rename_i label
      obtain ⟨added, together, disconnects⟩ := taken.runs_posted
      have messages := congrArg (postedMessages headerSize) together
      rw [posted_messages_append, posted_messages_append, posted_messages_append,
        posted_messages_none headerSize disconnects, List.append_nil] at messages
      obtain ⟨few, whole⟩ := accepted_runs headerSize sameHeaderSize label
      have sent : next.sent = endpoint.sent ++ endpoint.accepted label := by rw [same]
      simp only [Endpoint.outgoing, Label.asks, sent, List.append_assoc, messages]
      constructor
      · exact (List.Sublist.refl _).append (few.append (List.Sublist.refl _))
      · intro unrefused
        rw [whole unrefused]
  | read outstanding reads marshaller requests same =>
      have grows := outgoing_of_reads headerSize reads (by rw [same]; rfl)
      exact ⟨by rw [grows]; exact List.Sublist.refl _, fun _ => grows⟩
  | other asks reads marshaller requests same =>
      have grows := outgoing_of_reads headerSize reads (by rw [same])
      rw [asks]
      exact ⟨by rw [grows], fun _ => grows⟩

end Endpoint

end Sne.Session
