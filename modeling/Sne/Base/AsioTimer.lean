import Mathlib.Data.List.Basic

/-!
# Timers

`AsioTimer.h` over a `boost::asio::deadline_timer`. A wait ends with a completion
that is queued when the time has come, and setting a new expiry time or cancelling
aborts only the waits that are not queued yet.
-/

namespace Sne.Base

set_option autoImplicit false

inductive ErrorCode where
  | success
  | operationAborted
  | other
deriving DecidableEq, Repr

inductive WaitKind where
  | once
  | repeat (timeout : Nat)
deriving DecidableEq, Repr

inductive WaitStatus where
  | waiting
  | expired
  | aborted
deriving DecidableEq, Repr

structure Wait where
  kind : WaitKind
  status : WaitStatus
deriving DecidableEq, Repr

def Wait.completion (wait : Wait) : Option ErrorCode :=
  match wait.status with
  | .waiting => none
  | .expired => some .success
  | .aborted => some .operationAborted

def Wait.isAborted (wait : Wait) : Bool := decide (wait.status = .aborted)

theorem Wait.completion_unaborted {wait : Wait} {error : ErrorCode}
    (completed : wait.completion = some error)
    (unaborted : wait.isAborted = false) : error = .success := by
  unfold completion at completed
  unfold isAborted at unaborted
  cases status : wait.status with
  | waiting => simp [status] at completed
  | expired => simpa [status, eq_comm] using completed
  | aborted => simp [status] at unaborted

structure AsioTimer where
  isRunning : Bool := false
  waits : List Wait := []
deriving DecidableEq, Repr

namespace AsioTimer

def abortWait (wait : Wait) : Wait :=
  match wait.status with
  | .waiting => { wait with status := .aborted }
  | _ => wait

def asyncWait (kind : WaitKind) (timer : AsioTimer) : AsioTimer :=
  { timer with waits := timer.waits.map abortWait ++ [{ kind, status := .waiting }] }

def once (timer : AsioTimer) : AsioTimer :=
  { timer.asyncWait .once with isRunning := true }

def startRepeat (timeout : Nat) (timer : AsioTimer) : AsioTimer :=
  { timer.asyncWait (.repeat timeout) with isRunning := true }

def expire (index : Nat) (timer : AsioTimer) : AsioTimer :=
  { timer with waits := timer.waits.modify index fun wait =>
      match wait.status with
      | .waiting => { wait with status := .expired }
      | _ => wait }

def cancel (timer : AsioTimer) : AsioTimer :=
  { waits := if timer.isRunning then timer.waits.map abortWait else timer.waits
    isRunning := false }

theorem modify_unobserved {Entry Value : Type} {observe : Entry → Value} {change : Entry → Entry}
    (same : ∀ entry, observe (change entry) = observe entry) (index : Nat) (entries : List Entry) :
    (entries.modify index change).map observe = entries.map observe := by
  induction entries generalizing index with
  | nil =>
      rw [List.modify_nil]
  | cons entry entries induction =>
      cases index with
      | zero => rw [List.modify_zero_cons, List.map_cons, List.map_cons, same]
      | succ index => rw [List.modify_succ_cons, List.map_cons, List.map_cons, induction]

theorem expire_aborted (index : Nat) (timer : AsioTimer) :
    (timer.expire index).waits.map Wait.isAborted = timer.waits.map Wait.isAborted := by
  apply modify_unobserved
  intro wait
  cases status : wait.status <;> simp [Wait.isAborted, status]

theorem expire_kind (index : Nat) (timer : AsioTimer) :
    (timer.expire index).waits.map Wait.kind = timer.waits.map Wait.kind := by
  apply modify_unobserved
  intro wait
  cases status : wait.status <;> rfl

theorem abort_kind (waits : List Wait) : (waits.map abortWait).map Wait.kind = waits.map Wait.kind := by
  rw [List.map_map]
  apply List.map_congr_left
  intro wait _
  cases status : wait.status <;> simp [abortWait, status]

theorem cancel_kind (timer : AsioTimer) :
    timer.cancel.waits.map Wait.kind = timer.waits.map Wait.kind := by
  unfold cancel
  dsimp only
  split
  · exact abort_kind timer.waits
  · rfl

theorem expire_nil (index : Nat) (isRunning : Bool) :
    (AsioTimer.mk isRunning []).expire index = ⟨isRunning, []⟩ := by
  cases index <;> rfl

theorem expire_only (index : Nat) (isRunning : Bool) (wait : Wait) :
    ∃ expired, (AsioTimer.mk isRunning [wait]).expire index = ⟨isRunning, [expired]⟩ ∧
      expired.kind = wait.kind ∧ expired.isAborted = wait.isAborted := by
  have kinds := expire_kind index ⟨isRunning, [wait]⟩
  have aborted := expire_aborted index ⟨isRunning, [wait]⟩
  rcases List.map_eq_singleton_iff.mp kinds with ⟨expired, waits, kind⟩
  rw [waits, List.map_singleton, List.map_singleton, List.cons.injEq] at aborted
  refine ⟨expired, ?_, kind, aborted.1⟩
  rw [← waits]
  rfl

end AsioTimer

/-- A timer that is a member of the object whose `timedOut` it calls. -/
structure TimerMember (σ : Type) where
  timer : σ → AsioTimer
  put : AsioTimer → σ → σ

namespace TimerMember

variable {σ : Type} (member : TimerMember σ)

def modify (change : AsioTimer → AsioTimer) (state : σ) : σ :=
  member.put (change (member.timer state)) state

def stop (state : σ) : σ := member.modify (fun timer => { timer with isRunning := false }) state

/-- `handle_timeout`. The flag is cleared once more after the callback, which may have started
the timer again. -/
def handleTimeout (timedOut : σ → σ) (error : ErrorCode) (state : σ) : σ :=
  let state :=
    if error = .success && (member.timer state).isRunning then timedOut (member.stop state) else state
  member.stop state

def handleRepeatTimeout (timedOut : σ → σ) (timeout : Nat) (error : ErrorCode) (state : σ) : σ :=
  if error = .success then
    if (member.timer state).isRunning then
      timedOut (member.modify (AsioTimer.startRepeat timeout) state)
    else
      state
  else
    member.stop state

def handleCompletion (timedOut : σ → σ) (kind : WaitKind) : ErrorCode → σ → σ :=
  match kind with
  | .once => member.handleTimeout timedOut
  | .repeat timeout => member.handleRepeatTimeout timedOut timeout

theorem handle_completion_stopped (timedOut : σ → σ) (kind : WaitKind) (error : ErrorCode) {state : σ}
    (stopped : (member.timer state).isRunning = false) :
    member.handleCompletion timedOut kind error state = state ∨
      member.handleCompletion timedOut kind error state = member.stop state := by
  cases kind with
  | once =>
      right
      rw [handleCompletion, handleTimeout, stopped, Bool.and_false]
      rfl
  | «repeat» timeout =>
      rw [handleCompletion, handleRepeatTimeout, stopped]
      split
      · exact .inl rfl
      · exact .inr rfl

def deliver (timedOut : σ → σ) (index : Nat) (state : σ) : Option σ :=
  ((member.timer state).waits[index]?).bind fun wait => wait.completion.map fun error =>
    member.handleCompletion timedOut wait.kind error (member.modify (fun timer =>
      { timer with waits := timer.waits.eraseIdx index }) state)

theorem deliver_cases {timedOut : σ → σ} {index : Nat} {state next : σ}
    (delivered : member.deliver timedOut index state = some next) :
    ∃ wait error, (member.timer state).waits[index]? = some wait ∧ wait.completion = some error ∧
      next = member.handleCompletion timedOut wait.kind error (member.modify (fun timer =>
        { timer with waits := timer.waits.eraseIdx index }) state) := by
  rcases Option.bind_eq_some_iff.mp delivered with ⟨wait, found, completes⟩
  rcases Option.map_eq_some_iff.mp completes with ⟨error, completed, same⟩
  exact ⟨wait, error, found, completed, same.symm⟩

end TimerMember

end Sne.Base
