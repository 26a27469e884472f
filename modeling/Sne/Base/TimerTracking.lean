import Sne.Base.AsioTimer
import Sne.Library.Runs

/-!
# What a timer is for

`AsioTimer` beside an ideal timer that knows its wait. The ideal timer has at most one
wait, the one of the last `once` or `repeat` that was neither cancelled nor replaced,
and it fires when this wait has expired. `AsioTimer` has only the flag `isRunning_`,
which the completions of all its waits share.
-/

namespace Sne.Base

open Sne.Library.Runs

set_option autoImplicit false

inductive TimerCall where
  | once
  | repeat (timeout : Nat)
  | cancel
deriving DecidableEq, Repr

structure IdealTimer where
  pending : Option WaitKind := none
  firings : List WaitKind := []

namespace IdealTimer

def call (timer : IdealTimer) : TimerCall → IdealTimer
  | .once => { timer with pending := some .once }
  | .repeat timeout => { timer with pending := some (.repeat timeout) }
  | .cancel => { timer with pending := none }

def fire (kind : WaitKind) (calls : List TimerCall) (timer : IdealTimer) : IdealTimer :=
  calls.foldl call
    { pending := match kind with
        | .once => none
        | .repeat timeout => some (.repeat timeout)
      firings := timer.firings ++ [kind] }

end IdealTimer

/-- A timer with the firings of its callback, whether the assertion of `once` has held, and the
ideal timer for the same calls and completions. -/
structure TrackedTimer where
  timer : AsioTimer := {}
  firings : List WaitKind := []
  assertionHolds : Bool := true
  ideal : IdealTimer := {}

namespace TrackedTimer

def member : TimerMember TrackedTimer where
  timer state := state.timer
  put timer state := { state with timer }

def call (state : TrackedTimer) : TimerCall → TrackedTimer
  | .once => { state with
      timer := state.timer.once
      assertionHolds := state.assertionHolds && !state.timer.isRunning }
  | .repeat timeout => { state with timer := state.timer.startRepeat timeout }
  | .cancel => { state with timer := state.timer.cancel }

def timedOut (kind : WaitKind) (calls : List TimerCall) (state : TrackedTimer) : TrackedTimer :=
  calls.foldl call { state with firings := state.firings ++ [kind] }

/-- The wait is the one of the ideal timer. Every call of `once` or `repeat` puts its wait last. -/
def isCurrent (state : TrackedTimer) (index : Nat) : Bool :=
  state.ideal.pending.isSome && decide (index + 1 = state.timer.waits.length)

inductive Label where
  | call (call : TimerCall)
  | expires (index : Nat)
  | completes (index : Nat) (calls : List TimerCall)

def idealCompletes (state : TrackedTimer) (index : Nat) (wait : Wait) (calls : List TimerCall) :
    IdealTimer :=
  if state.isCurrent index && decide (wait.completion = some .success) then
    state.ideal.fire wait.kind calls
  else
    state.ideal

def moved (state : TrackedTimer) : Label → Option TrackedTimer
  | .call call => some { state.call call with ideal := state.ideal.call call }
  | .expires index => some { state with timer := state.timer.expire index }
  | .completes index calls =>
      (state.timer.waits[index]?).bind fun wait =>
        (member.deliver (timedOut wait.kind calls) index state).map fun next =>
          { next with ideal := state.idealCompletes index wait calls }

/-- `once` is called only when the timer is not running. -/
def advance (state : TrackedTimer) (label : Label) : Option TrackedTimer :=
  (state.moved label).filter assertionHolds

def Step (state : TrackedTimer) (label : Label) (next : TrackedTimer) : Prop :=
  state.advance label = some next

/-- The timer runs exactly while the wait of the ideal timer is outstanding, and has fired when the
ideal timer has. -/
structure Tracks (state : TrackedTimer) : Prop where
  running : state.timer.isRunning = true ↔ state.ideal.pending.isSome = true
  outstanding : ∀ kind, state.ideal.pending = some kind →
    ∃ earlier wait, state.timer.waits = earlier ++ [wait] ∧ wait.kind = kind ∧ wait.isAborted = false
  firings : state.firings = state.ideal.firings

/-- A wait is started only when no other is outstanding, and never by the callback. -/
def StartsAlone (state : TrackedTimer) : Label → Prop
  | .call call => call ≠ .cancel → state.timer.waits = []
  | .completes _ calls => ∀ call ∈ calls, call = .cancel
  | .expires _ => True

instance (state : TrackedTimer) (label : Label) : Decidable (state.StartsAlone label) :=
  match label with
  | .call _ => inferInstanceAs (Decidable (_ → _))
  | .completes _ _ => inferInstanceAs (Decidable (∀ _ ∈ _, _))
  | .expires _ => .isTrue trivial

/-- No wait is outstanding; or the only one is that of the ideal timer; or the timer was stopped
before the completion of its only wait has been delivered. -/
inductive Alone (timer : AsioTimer) : Option WaitKind → Prop where
  | idle : timer = ⟨false, []⟩ → Alone timer none
  | running (wait : Wait) : timer = ⟨true, [wait]⟩ → wait.isAborted = false → Alone timer (some wait.kind)
  | stopped (wait : Wait) : timer = ⟨false, [wait]⟩ → Alone timer none

theorem Alone.cancel {timer : AsioTimer} {pending : Option WaitKind} (alone : Alone timer pending) :
    Alone timer.cancel none := by
  cases alone with
  | idle same => exact .idle (by rw [same]; rfl)
  | running wait same live => exact .stopped (AsioTimer.abortWait wait) (by rw [same]; rfl)
  | stopped wait same => exact .stopped wait (by rw [same]; rfl)

theorem alone_started {timer : AsioTimer} (none : timer.waits = []) (kind : WaitKind) :
    Alone { timer.asyncWait kind with isRunning := true } (some kind) := by
  apply Alone.running ⟨kind, .waiting⟩
  · rw [AsioTimer.asyncWait, none]
    rfl
  · rfl

theorem Alone.expire {timer : AsioTimer} {pending : Option WaitKind} (alone : Alone timer pending)
    (index : Nat) : Alone (timer.expire index) pending := by
  cases alone with
  | idle same =>
      rw [same, AsioTimer.expire_nil]
      exact .idle rfl
  | running wait same live =>
      rcases AsioTimer.expire_only index true wait with ⟨expired, waits, kind, aborted⟩
      rw [same, waits, ← kind]
      exact .running expired rfl (aborted.trans live)
  | stopped wait same =>
      rcases AsioTimer.expire_only index false wait with ⟨expired, waits, _, _⟩
      rw [same, waits]
      exact .stopped expired rfl

structure Aligned (state : TrackedTimer) (ideal : IdealTimer) : Prop where
  alone : Alone state.timer ideal.pending
  firings : state.firings = ideal.firings

theorem Aligned.tracks {state : TrackedTimer} (aligned : state.Aligned state.ideal) : state.Tracks := by
  have alone := aligned.alone
  constructor
  · cases pending : state.ideal.pending with
    | none =>
        rw [pending] at alone
        cases alone with
        | idle same => simp [same]
        | stopped wait same => simp [same]
    | some kind =>
        rw [pending] at alone
        cases alone with
        | running wait same live => simp [same]
  · intro kind pending
    rw [pending] at alone
    cases alone with
    | running wait same live => exact ⟨[], wait, by rw [same]; rfl, rfl, live⟩
  · exact aligned.firings

/-- A callback that only cancels does the same to the timer and to its ideal. -/
theorem Aligned.cancels {state : TrackedTimer} {ideal : IdealTimer} (aligned : state.Aligned ideal)
    {calls : List TimerCall} (cancels : ∀ call ∈ calls, call = .cancel) :
    (calls.foldl TrackedTimer.call state).Aligned (calls.foldl IdealTimer.call ideal) := by
  induction calls generalizing state ideal with
  | nil => exact aligned
  | cons call calls induction =>
      rw [List.foldl_cons, List.foldl_cons, cancels call List.mem_cons_self]
      apply induction
      · exact ⟨aligned.alone.cancel, aligned.firings⟩
      · intro later member
        exact cancels later (List.mem_cons_of_mem call member)

theorem cancels_pending {ideal : IdealTimer} {calls : List TimerCall} (unpended : ideal.pending = none)
    (cancels : ∀ call ∈ calls, call = .cancel) : (calls.foldl IdealTimer.call ideal).pending = none := by
  induction calls generalizing ideal with
  | nil => exact unpended
  | cons call calls induction =>
      rw [List.foldl_cons, cancels call List.mem_cons_self]
      apply induction rfl
      intro later member
      exact cancels later (List.mem_cons_of_mem call member)

/-- Clearing the flag does nothing to a timer that has no wait to fire for. -/
theorem Aligned.stop {state : TrackedTimer} {ideal : IdealTimer} (aligned : state.Aligned ideal)
    (none : ideal.pending = none) : (member.stop state).Aligned ideal := by
  have alone := aligned.alone
  rw [none] at alone
  refine ⟨?_, aligned.firings⟩
  rw [none]
  simp only [TimerMember.stop, TimerMember.modify, member]
  cases alone with
  | idle same => exact .idle (by rw [same])
  | stopped wait same => exact .stopped wait (by rw [same])

/-- The wait of the ideal timer has expired, and both timers fire. -/
theorem fires_aligned {state : TrackedTimer} {kind : WaitKind} {calls : List TimerCall}
    (same : state.timer = ⟨true, []⟩) (firings : state.firings = state.ideal.firings)
    (cancels : ∀ call ∈ calls, call = .cancel) :
    (member.handleCompletion (timedOut kind calls) kind .success state).Aligned
      (state.ideal.fire kind calls) := by
  have fired : state.firings ++ [kind] = state.ideal.firings ++ [kind] := by rw [firings]
  have runs : (member.timer state).isRunning = true := congrArg AsioTimer.isRunning same
  cases kind with
  | once =>
      simp only [TimerMember.handleCompletion, TimerMember.handleTimeout, runs]
      apply Aligned.stop
      · apply Aligned.cancels _ cancels
        refine ⟨.idle ?_, fired⟩
        simp only [TimerMember.stop, TimerMember.modify, member, same]
      · exact cancels_pending rfl cancels
  | «repeat» timeout =>
      simp only [TimerMember.handleCompletion, TimerMember.handleRepeatTimeout, runs, if_true]
      apply Aligned.cancels _ cancels
      refine ⟨?_, fired⟩
      simp only [TimerMember.modify, member, same]
      exact alone_started rfl (.repeat timeout)

theorem ignores_aligned {state : TrackedTimer} {kind : WaitKind} {error : ErrorCode}
    {calls : List TimerCall}
    (same : state.timer = ⟨false, []⟩) (none : state.ideal.pending = none)
    (firings : state.firings = state.ideal.firings) :
    (member.handleCompletion (timedOut kind calls) kind error state).Aligned state.ideal := by
  have aligned : state.Aligned state.ideal := by
    refine ⟨?_, firings⟩
    rw [none]
    exact .idle same
  have stopped : (member.timer state).isRunning = false := congrArg AsioTimer.isRunning same
  cases kind with
  | once =>
      simp only [TimerMember.handleCompletion, TimerMember.handleTimeout, stopped, Bool.and_false]
      exact aligned.stop none
  | «repeat» timeout =>
      simp only [TimerMember.handleCompletion, TimerMember.handleRepeatTimeout, stopped]
      split
      · exact aligned
      · exact aligned.stop none

/-- A completion is that of the only wait. -/
theorem completes_aligned {state : TrackedTimer} {index : Nat} {calls : List TimerCall} {wait : Wait}
    {error : ErrorCode} (aligned : state.Aligned state.ideal)
    (found : state.timer.waits[index]? = some wait)
    (completed : wait.completion = some error) (cancels : ∀ call ∈ calls, call = .cancel) :
    (member.handleCompletion (timedOut wait.kind calls) wait.kind error (member.modify (fun timer =>
      { timer with waits := timer.waits.eraseIdx index }) state)).Aligned
      (state.idealCompletes index wait calls) := by
  have only : ∀ other, state.timer.waits = [other] → index = 0 ∧ other = wait := by
    intro other single
    rw [single] at found
    cases index with
    | zero => exact ⟨rfl, Option.some.inj found⟩
    | succ index => cases found
  have alone := aligned.alone
  cases pending : state.ideal.pending with
  | none =>
      rw [pending] at alone
      have ignored : state.idealCompletes index wait calls = state.ideal := by
        rw [idealCompletes, isCurrent, pending]
        rfl
      rw [ignored]
      apply ignores_aligned
      · cases alone with
        | idle same =>
            rw [same] at found
            cases found
        | stopped other same =>
            rcases only other (congrArg AsioTimer.waits same) with ⟨rfl, rfl⟩
            simp only [TimerMember.modify, member, same]
            rfl
      · exact pending
      · exact aligned.firings
  | some kind =>
      rw [pending] at alone
      cases alone with
      | running other same live =>
          rcases only other (congrArg AsioTimer.waits same) with ⟨rfl, rfl⟩
          have succeeded : error = .success := Wait.completion_unaborted completed live
          have fires : state.idealCompletes 0 other calls = state.ideal.fire other.kind calls := by
            rw [idealCompletes, isCurrent, pending, same, completed, succeeded]
            rfl
          rw [fires, succeeded]
          apply fires_aligned
          · simp only [TimerMember.modify, member, same]
            rfl
          · exact aligned.firings
          · exact cancels

theorem step_aligned {state next : TrackedTimer} {label : Label} (aligned : state.Aligned state.ideal)
    (step : Step state label next) (alone : state.StartsAlone label) : next.Aligned next.ideal := by
  have taken : state.moved label = some next := (Option.filter_eq_some_iff.mp step).1
  cases label with
  | call call =>
      cases taken
      cases call with
      | once => exact ⟨alone_started (alone nofun) .once, aligned.firings⟩
      | «repeat» timeout => exact ⟨alone_started (alone nofun) (.repeat timeout), aligned.firings⟩
      | cancel => exact ⟨aligned.alone.cancel, aligned.firings⟩
  | expires index =>
      cases taken
      exact ⟨aligned.alone.expire index, aligned.firings⟩
  | completes index calls =>
      rcases Option.bind_eq_some_iff.mp taken with ⟨wait, found, delivered⟩
      rcases Option.map_eq_some_iff.mp delivered with ⟨handled, delivers, same⟩
      rcases Option.bind_eq_some_iff.mp delivers with ⟨other, foundAgain, completes⟩
      rcases Option.map_eq_some_iff.mp completes with ⟨error, completed, result⟩
      have one : other = wait := Option.some.inj (foundAgain.symm.trans found)
      rw [one] at completed result
      rw [← same, ← result]
      have after := completes_aligned aligned found completed alone
      exact ⟨after.alone, after.firings⟩

/-- As long as a wait is started only when no other is outstanding, and not by the callback, the
timer tracks its wait exactly. -/
theorem timer_tracks_wait {labels : List Label} {last : TrackedTimer}
    (run : Run (Where Step StartsAlone) {} labels last) : last.Tracks := by
  have aligned : last.Aligned last.ideal := by
    apply run.invariant (fun _ state => state.Aligned state.ideal)
    · exact ⟨.idle rfl, rfl⟩
    · intro history state label next before step
      exact step_aligned before step.1 step.2
  exact aligned.tracks

def repeating : List Label :=
  [.call (.repeat 5), .expires 0, .completes 0 [], .expires 0, .completes 0 [.cancel], .completes 0 []]

def restarting : List Label := [.call .once, .call .cancel, .call .once, .completes 0 []]

theorem timer_tracks_wait_repeating :
    ∃ last, Run (Where Step StartsAlone) {} repeating last ∧
      last.firings = [.repeat 5, .repeat 5] ∧ last.Tracks := by
  have executes : (execute (guarded advance StartsAlone) {} repeating).map TrackedTimer.firings =
      some [.repeat 5, .repeat 5] := by
    decide +kernel
  rcases Run.of_guarded Step StartsAlone (fun _ _ _ taken => taken) executes with ⟨last, run, firings⟩
  exact ⟨last, run, firings, timer_tracks_wait run⟩

/-- The aborted completion of the first wait stops the timer, whose second wait is outstanding. -/
theorem aborted_wait_stops_timer : ¬∀ labels last, Run Step {} labels last → last.Tracks := by
  intro tracks
  have executes : (execute advance {} restarting).map (fun state =>
      (state.timer.isRunning, state.ideal.pending.isSome)) = some (false, true) := by
    decide +kernel
  rcases Run.of_observed Step (fun _ _ _ taken => taken) executes with ⟨last, run, facts⟩
  simp only [Prod.mk.injEq] at facts
  have running := (tracks restarting last run).running.mpr facts.2
  exact absurd (facts.1.symm.trans running) Bool.false_ne_true

end TrackedTimer

end Sne.Base
