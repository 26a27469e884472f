import Mathlib.Data.List.Basic
import Sne.Library.Runs

/-!
# Scheduled tasks

`TaskScheduler.cpp` over the contexts of an `IoContextTask`, each with a thread of its own. A task
is posted to a context, or a `ScheduledTaskFuture` runs it when its timer expires. Those who hold
a future cancel and release it while the threads are at work, and every statement of theirs is a
step. Those who post come one at a time: `getIoContext` reads, increments, compares and resets its
index without a lock, so that two calls at once could leave it out of range. Time passes as its own
step, in milliseconds. A task that throws ends the process, which is not modelled.
-/

namespace Sne.Base

open Sne.Library.Runs

set_option autoImplicit false

/-- Where the handler of a future's timer is. `tested` has found that the future is not
cancelled, and `running` has called `run` of the task. -/
inductive TimedHandler where
  | waiting (expiresAt : Nat)
  | expired
  | aborted
  | tested
  | running
  deriving DecidableEq, Repr

/-- `references` are the pointers of its clients, and `cancelling` those that are inside `cancel`.
The handler has one of its own. `runTimes` and `deletes` are observations of the task. -/
structure ScheduledTaskFuture where
  ioContext : Nat
  scheduledAt : Nat
  delay : Nat
  interval : Nat
  shouldDeleteTask : Bool
  isCancelled : Bool
  isCompleted : Bool
  handler : Option TimedHandler
  references : Nat
  cancelling : Nat
  isDestroyed : Bool
  runTimes : List Nat
  deletes : Nat
  deriving DecidableEq, Repr

namespace ScheduledTaskFuture

def schedule (now delay : Nat) (future : ScheduledTaskFuture) : ScheduledTaskFuture :=
  { future with handler := some (.waiting (now + delay)) }

/-- `scheduleTimedTask`. The client has the pointer that it returns. -/
def create (ioContext now : Nat) (shouldDeleteTask : Bool) (delay interval : Nat) :
    ScheduledTaskFuture :=
  schedule now delay
    { ioContext, scheduledAt := now, delay, interval, shouldDeleteTask, isCancelled := false,
      isCompleted := false, handler := none, references := 1, cancelling := 0, isDestroyed := false,
      runTimes := [], deletes := 0 }

/-- The destructor, when the last pointer is gone. -/
def settle (future : ScheduledTaskFuture) : ScheduledTaskFuture :=
  if future.handler = none ∧ future.references = 0 ∧ future.cancelling = 0 ∧
      future.isDestroyed = false then
    { future with
      isDestroyed := true
      deletes := if future.shouldDeleteTask then future.deletes + 1 else future.deletes }
  else
    future

def dropHandler (future : ScheduledTaskFuture) : ScheduledTaskFuture :=
  { future with handler := none }.settle

/-- `timer_.cancel` aborts the wait, but not a handler that has been called. -/
def cancelTimer : TimedHandler → TimedHandler
  | .waiting _ => .aborted
  | handler => handler

inductive Action where
  | expire
  | handle
  | run
  | finish
  | beginCancel
  | endCancel
  | share
  | release
  deriving DecidableEq, Repr

def Action.isThread : Action → Bool
  | .expire | .handle | .run | .finish => true
  | _ => false

def advance (now : Nat) (future : ScheduledTaskFuture) : Action → Option ScheduledTaskFuture
  | .expire =>
      match future.handler with
      | some (.waiting expiresAt) =>
          if expiresAt ≤ now then some { future with handler := some .expired } else none
      | _ => none
  | .handle =>
      match future.handler with
      | some .expired =>
          if future.isCancelled then some future.dropHandler
          else some { future with handler := some .tested }
      | some .aborted => some future.dropHandler
      | _ => none
  | .run =>
      match future.handler with
      | some .tested =>
          -- `turned` or `completed`, which notifies the future itself in either case
          some { future with
            handler := some .running
            isCompleted := future.isCompleted || decide (future.interval = 0)
            runTimes := future.runTimes ++ [now] }
      | _ => none
  | .finish =>
      match future.handler with
      | some .running =>
          if future.interval > 0 then some (future.schedule now future.interval)
          else some future.dropHandler
      | _ => none
  | .beginCancel =>
      if 0 < future.references then
        some { future with
          references := future.references - 1
          cancelling := future.cancelling + 1
          handler := future.handler.map cancelTimer }
      else
        none
  | .endCancel =>
      if 0 < future.cancelling then
        some { future with
          isCancelled := true
          references := future.references + 1
          cancelling := future.cancelling - 1 }
      else
        none
  | .share =>
      if 0 < future.references then some { future with references := future.references + 1 } else none
  | .release =>
      if 0 < future.references then some { future with references := future.references - 1 }.settle
      else none

def isActive (future : ScheduledTaskFuture) : Bool :=
  decide (future.handler = some .tested ∨ future.handler = some .running)

end ScheduledTaskFuture

inductive TaskStatus where
  | posted
  | running
  | finished
  deriving DecidableEq, Repr

/-- What is posted for a task: `makeTask` of an owned one, or a function that calls it. -/
structure PostedTask where
  ioContext : Nat
  shouldDeleteTask : Bool
  status : TaskStatus
  runs : Nat
  deletes : Nat
  deriving DecidableEq, Repr

namespace PostedTask

def create (ioContext : Nat) (shouldDeleteTask : Bool) : PostedTask :=
  { ioContext, shouldDeleteTask, status := .posted, runs := 0, deletes := 0 }

def run (task : PostedTask) : PostedTask :=
  { task with status := .running, runs := task.runs + 1 }

/-- `savedTask` leaves its scope. -/
def finish (task : PostedTask) : PostedTask :=
  { task with
    status := .finished
    deletes := if task.shouldDeleteTask then task.deletes + 1 else task.deletes }

def isActive (task : PostedTask) : Bool := decide (task.status = .running)

end PostedTask

structure TaskScheduler where
  now : Nat
  ioContexts : Nat
  nextIoContext : Nat
  tasks : List PostedTask
  futures : List ScheduledTaskFuture
  deriving DecidableEq, Repr

namespace TaskScheduler

def start (threadCount : Nat) : TaskScheduler :=
  { now := 0, ioContexts := threadCount, nextIoContext := 0, tasks := [], futures := [] }

/-- `IoContextTask::getIoContext`, with the round robin, while nobody else is inside of it. An index
that is out of range has no step. -/
def getIoContext (scheduler : TaskScheduler) : Option (Nat × TaskScheduler) :=
  if scheduler.nextIoContext < scheduler.ioContexts then
    let nextIoContext := scheduler.nextIoContext + 1
    some (scheduler.nextIoContext,
      { scheduler with nextIoContext := if nextIoContext = scheduler.ioContexts then 0 else nextIoContext })
  else
    none

/-- The `schedule` without a delay. -/
def schedule (shouldDeleteTask : Bool) (scheduler : TaskScheduler) : Option TaskScheduler :=
  scheduler.getIoContext.map fun (ioContext, scheduler) =>
    { scheduler with tasks := scheduler.tasks ++ [.create ioContext shouldDeleteTask] }

def scheduleTimedTask (shouldDeleteTask : Bool) (delay interval : Nat) (scheduler : TaskScheduler) :
    Option TaskScheduler :=
  scheduler.getIoContext.map fun (ioContext, scheduler) =>
    { scheduler with
      futures := scheduler.futures ++ [.create ioContext scheduler.now shouldDeleteTask delay interval] }

def active (ioContext : Nat) (scheduler : TaskScheduler) : Nat :=
  scheduler.tasks.countP (fun task => task.ioContext == ioContext && task.isActive) +
    scheduler.futures.countP (fun future => future.ioContext == ioContext && future.isActive)

inductive Label where
  | elapse (duration : Nat)
  | schedule (shouldDeleteTask : Bool)
  | scheduleTimedTask (shouldDeleteTask : Bool) (delay interval : Nat)
  | runTask (number : Nat)
  | finishTask (number : Nat)
  | future (number : Nat) (action : ScheduledTaskFuture.Action)
  deriving DecidableEq, Repr

/-- A thread takes the next handler when it has returned from the last one. What is posted to a
context is handled in its order. -/
def advance (scheduler : TaskScheduler) : Label → Option TaskScheduler
  | .elapse duration => some { scheduler with now := scheduler.now + duration }
  | .schedule shouldDeleteTask => scheduler.schedule shouldDeleteTask
  | .scheduleTimedTask shouldDeleteTask delay interval =>
      scheduler.scheduleTimedTask shouldDeleteTask delay interval
  | .runTask number =>
      scheduler.tasks[number]?.bind fun task =>
        if task.status = .posted ∧ scheduler.active task.ioContext = 0 ∧
            ∀ earlier ∈ scheduler.tasks.take number, earlier.ioContext = task.ioContext →
              earlier.status ≠ .posted then
          some { scheduler with tasks := scheduler.tasks.set number task.run }
        else
          none
  | .finishTask number =>
      scheduler.tasks[number]?.bind fun task =>
        if task.status = .running then
          some { scheduler with tasks := scheduler.tasks.set number task.finish }
        else
          none
  | .future number action =>
      scheduler.futures[number]?.bind fun future =>
        if action = .handle → scheduler.active future.ioContext = 0 then
          (future.advance scheduler.now action).map fun next =>
            { scheduler with futures := scheduler.futures.set number next }
        else
          none

def Step (scheduler : TaskScheduler) (label : Label) (next : TaskScheduler) : Prop :=
  scheduler.advance label = some next

def Label.isThread : Label → Bool
  | .runTask _ | .finishTask _ => true
  | .future _ action => action.isThread
  | _ => false

end TaskScheduler

namespace ScheduledTaskFuture

variable {now : Nat} {future next : ScheduledTaskFuture} {action : Action}

inductive Taken (now : Nat) (future : ScheduledTaskFuture) : Action → ScheduledTaskFuture → Prop where
  | expire (expiresAt : Nat) : future.handler = some (.waiting expiresAt) → expiresAt ≤ now →
      Taken now future .expire { future with handler := some .expired }
  | handle : future.handler = some .expired → future.isCancelled = false →
      Taken now future .handle { future with handler := some .tested }
  | leave : future.handler = some .expired ∧ future.isCancelled = true ∨ future.handler = some .aborted →
      Taken now future .handle future.dropHandler
  | run : future.handler = some .tested →
      Taken now future .run { future with
        handler := some .running
        isCompleted := future.isCompleted || decide (future.interval = 0)
        runTimes := future.runTimes ++ [now] }
  | again : future.handler = some .running → 0 < future.interval →
      Taken now future .finish (future.schedule now future.interval)
  | finish : future.handler = some .running → future.interval = 0 →
      Taken now future .finish future.dropHandler
  | beginCancel : 0 < future.references →
      Taken now future .beginCancel { future with
        references := future.references - 1
        cancelling := future.cancelling + 1
        handler := future.handler.map cancelTimer }
  | endCancel : 0 < future.cancelling →
      Taken now future .endCancel { future with
        isCancelled := true
        references := future.references + 1
        cancelling := future.cancelling - 1 }
  | share : 0 < future.references →
      Taken now future .share { future with references := future.references + 1 }
  | release : 0 < future.references →
      Taken now future .release { future with references := future.references - 1 }.settle

theorem advance_taken (taken : future.advance now action = some next) :
    Taken now future action next := by
  cases action with
  | expire =>
      simp only [advance] at taken
      split at taken
      · rename_i expiresAt found
        split at taken
        · rename_i due
          cases taken
          exact .expire expiresAt found due
        · cases taken
      · cases taken
  | handle =>
      simp only [advance] at taken
      split at taken
      · rename_i found
        split at taken
        · rename_i cancelled
          cases taken
          exact .leave (.inl ⟨found, cancelled⟩)
        · rename_i uncancelled
          cases taken
          exact .handle found (Bool.eq_false_iff.mpr uncancelled)
      · rename_i found
        cases taken
        exact .leave (.inr found)
      · cases taken
  | run =>
      simp only [advance] at taken
      split at taken
      · rename_i found
        cases taken
        exact .run found
      · cases taken
  | finish =>
      simp only [advance] at taken
      split at taken
      · rename_i found
        split at taken
        · rename_i repeats
          cases taken
          exact .again found repeats
        · rename_i once
          cases taken
          exact .finish found (Nat.eq_zero_of_not_pos once)
      · cases taken
  | beginCancel =>
      obtain ⟨held, same⟩ := Option.ite_none_right_eq_some.mp taken
      exact Option.some.inj same ▸ .beginCancel held
  | endCancel =>
      obtain ⟨inside, same⟩ := Option.ite_none_right_eq_some.mp taken
      exact Option.some.inj same ▸ .endCancel inside
  | share =>
      obtain ⟨held, same⟩ := Option.ite_none_right_eq_some.mp taken
      exact Option.some.inj same ▸ .share held
  | release =>
      obtain ⟨held, same⟩ := Option.ite_none_right_eq_some.mp taken
      exact Option.some.inj same ▸ .release held

/-- Before when the task is not run again. -/
def earliest (now : Nat) (future : ScheduledTaskFuture) : TimedHandler → Option Nat
  | .waiting expiresAt => some expiresAt
  | .expired | .tested => some now
  | .running => some (now + future.interval)
  | .aborted => none

/-- The times of the runs keep the delay and the interval, a task without an interval is run once,
and the timer is given up only for a reason. -/
structure Paced (now : Nat) (future : ScheduledTaskFuture) : Prop where
  spaced : future.runTimes.Pairwise fun earlier later => earlier + future.interval ≤ later
  delayed : ∀ index time, future.runTimes[index]? = some time →
    future.scheduledAt + future.delay + index * future.interval ≤ time
  completed : future.isCompleted = true ↔ future.interval = 0 ∧ future.runTimes ≠ []
  once : future.interval = 0 → future.runTimes.length ≤ 1
  before : future.interval = 0 → future.handler ≠ none → future.handler ≠ some .running →
    future.runTimes = []
  ran : future.handler = some .running → future.runTimes ≠ []
  next : ∀ handler time, future.handler = some handler → future.earliest now handler = some time →
    future.scheduledAt + future.delay + future.runTimes.length * future.interval ≤ time ∧
      ∀ earlier ∈ future.runTimes, earlier + future.interval ≤ time
  stopped : future.handler = none →
    future.isCancelled = true ∨ 0 < future.cancelling ∨ future.isCompleted = true
  aborted : future.handler = some .aborted → future.isCancelled = true ∨ 0 < future.cancelling

/-- The task is deleted with the future, when nobody has a pointer any more. -/
structure Sound (now : Nat) (future : ScheduledTaskFuture) : Prop extends Paced now future where
  destroyed : future.isDestroyed = true ↔
    future.handler = none ∧ future.references = 0 ∧ future.cancelling = 0
  deletes : future.deletes = if future.isDestroyed && future.shouldDeleteTask then 1 else 0

theorem create_sound (ioContext now : Nat) (shouldDeleteTask : Bool) (delay interval : Nat) :
    (create ioContext now shouldDeleteTask delay interval).Sound now := by
  constructor
  · constructor
    · exact List.Pairwise.nil
    · exact fun _ _ => nofun
    · exact ⟨nofun, fun facts => absurd rfl facts.2⟩
    · exact fun _ => Nat.zero_le 1
    · exact fun _ _ _ => rfl
    · exact nofun
    · intro handler time waits bound
      cases waits
      cases bound
      refine ⟨?_, fun _ => nofun⟩
      change now + delay + 0 * interval ≤ now + delay
      omega
    · exact nofun
    · exact nofun
  · exact ⟨nofun, fun facts => by cases facts.1⟩
  · rfl

theorem Sound.destroyed_final (sound : future.Sound now) (destroyed : future.isDestroyed = true)
    (time : Nat) (action : Action) : future.advance time action = none := by
  obtain ⟨handler, references, cancelling⟩ := sound.destroyed.mp destroyed
  cases action <;> simp [advance, handler, references, cancelling]

theorem Sound.alive (sound : future.Sound now) {time : Nat}
    (taken : future.advance time action = some next) :
    future.isDestroyed = false ∧ future.deletes = 0 := by
  cases destroyed : future.isDestroyed with
  | true => rw [sound.destroyed_final destroyed] at taken; cases taken
  | false =>
      refine ⟨rfl, ?_⟩
      rw [sound.deletes, destroyed]
      rfl

theorem settle_sound (paced : future.Paced now) (alive : future.isDestroyed = false)
    (kept : future.deletes = 0) : future.settle.Sound now := by
  unfold settle
  split
  · rename_i gone
    refine ⟨{ paced with }, ⟨fun _ => ⟨gone.1, gone.2.1, gone.2.2.1⟩, fun _ => rfl⟩, ?_⟩
    rw [kept, Bool.true_and]
  · rename_i held
    refine ⟨paced, ⟨fun destroyed => ?_, fun facts => ?_⟩, ?_⟩
    · rw [alive] at destroyed
      cases destroyed
    · exact absurd ⟨facts.1, facts.2.1, facts.2.2, alive⟩ held
    · rw [kept, alive]
      rfl

/-- A future that has a pointer, or whose handler has one, is not destroyed. -/
theorem held_sound (paced : future.Paced now) (alive : future.isDestroyed = false)
    (kept : future.deletes = 0)
    (held : ¬ (future.handler = none ∧ future.references = 0 ∧ future.cancelling = 0)) :
    future.Sound now := by
  refine ⟨paced, ⟨fun destroyed => ?_, fun facts => absurd facts held⟩, ?_⟩
  · rw [alive] at destroyed
    cases destroyed
  · rw [kept, alive]
    rfl

theorem Sound.elapse (sound : future.Sound now) (duration : Nat) : future.Sound (now + duration) := by
  refine { sound with next := ?_ }
  intro handler time found bound
  cases handler with
  | waiting expiresAt => exact sound.next _ time found bound
  | aborted => cases bound
  | expired | tested =>
      cases bound
      obtain ⟨delayed, spaced⟩ := sound.next _ now found rfl
      exact ⟨by omega, fun earlier member => Nat.le_add_right_of_le (spaced earlier member)⟩
  | running =>
      cases bound
      obtain ⟨delayed, spaced⟩ := sound.next _ (now + future.interval) found rfl
      refine ⟨by omega, fun earlier member => ?_⟩
      have gap := spaced earlier member
      omega

theorem Paced.dropHandler (paced : future.Paced now)
    (reason : future.isCancelled = true ∨ 0 < future.cancelling ∨ future.isCompleted = true) :
    Paced now { future with handler := none } := by
  refine { paced with
    before := ?_
    ran := nofun
    next := fun _ _ => nofun
    stopped := fun _ => reason
    aborted := nofun }
  exact fun _ held => absurd rfl held

/-- The next handler comes no earlier than the one before, and a task that may be run once has not
been run. -/
theorem Paced.handler (paced : future.Paced now) {before after : TimedHandler}
    (found : future.handler = some before) (waits : before ≠ .running) (unaborted : after ≠ .aborted)
    (called : after ≠ .running) (later : ∀ time, future.earliest now after = some time →
      ∃ least, future.earliest now before = some least ∧ least ≤ time) :
    Paced now { future with handler := some after } := by
  refine { paced with
    before := ?_
    ran := fun same => absurd (Option.some.inj same) called
    next := ?_
    stopped := nofun
    aborted := fun same => absurd (Option.some.inj same) unaborted }
  · intro once _ _
    apply paced.before once
    · rw [found]
      exact nofun
    · rw [found]
      exact fun same => waits (Option.some.inj same)
  · intro handler time same bound
    cases same
    obtain ⟨least, earlier, order⟩ := later time bound
    obtain ⟨delayed, spaced⟩ := paced.next before least found earlier
    exact ⟨Nat.le_trans delayed order, fun run member => Nat.le_trans (spaced run member) order⟩

theorem Paced.run (paced : future.Paced now) (found : future.handler = some .tested) :
    Paced now { future with
      handler := some .running
      isCompleted := future.isCompleted || decide (future.interval = 0)
      runTimes := future.runTimes ++ [now] } := by
  obtain ⟨delayed, spaced⟩ := paced.next .tested now found rfl
  have first : future.interval = 0 → future.runTimes = [] := by
    intro once
    apply paced.before once
    · rw [found]
      exact nofun
    · rw [found]
      exact nofun
  constructor
  · refine List.pairwise_append.mpr ⟨paced.spaced, List.pairwise_singleton _ _, ?_⟩
    intro earlier member time same
    rw [List.mem_singleton.mp same]
    exact spaced earlier member
  · intro index time place
    change (future.runTimes ++ [now])[index]? = some time at place
    rcases Nat.lt_or_ge index future.runTimes.length with earlier | last
    · rw [List.getElem?_append_left earlier] at place
      exact paced.delayed index time place
    · rw [List.getElem?_append_right last] at place
      obtain ⟨bound, same⟩ := List.getElem?_eq_some_iff.mp place
      have only : index = future.runTimes.length := by
        rw [List.length_singleton] at bound
        omega
      rw [List.getElem_singleton] at same
      rw [only, ← same]
      exact delayed
  · change (future.isCompleted || decide (future.interval = 0)) = true ↔ _
    rw [Bool.or_eq_true, paced.completed, decide_eq_true_iff]
    have nonempty : future.runTimes ++ [now] ≠ [] :=
      List.append_ne_nil_of_right_ne_nil _ (List.cons_ne_nil _ _)
    exact ⟨fun known => ⟨known.elim And.left id, nonempty⟩, fun known => .inr known.1⟩
  · intro once
    change (future.runTimes ++ [now]).length ≤ 1
    rw [first once]
    exact Nat.le_refl 1
  · intro _ _ other
    exact absurd rfl other
  · exact fun _ => List.append_ne_nil_of_right_ne_nil _ (List.cons_ne_nil _ _)
  · intro handler time same bound
    cases same
    cases bound
    refine ⟨?_, ?_⟩
    · change future.scheduledAt + future.delay + (future.runTimes ++ [now]).length * future.interval ≤
        now + future.interval
      rw [List.length_append, List.length_singleton, Nat.add_mul, Nat.one_mul]
      omega
    · intro earlier member
      rcases List.mem_append.mp member with old | new
      · exact Nat.le_add_right_of_le (spaced earlier old)
      · cases List.mem_singleton.mp new
        exact Nat.le_refl _
  · exact nofun
  · exact nofun

theorem Paced.finish (paced : future.Paced now) (found : future.handler = some .running)
    (repeats : 0 < future.interval) : Paced now (future.schedule now future.interval) := by
  obtain ⟨delayed, spaced⟩ := paced.next .running (now + future.interval) found rfl
  refine { paced with
    before := ?_
    ran := nofun
    next := ?_
    stopped := nofun
    aborted := nofun }
  · intro once
    change future.interval = 0 at once
    omega
  · intro handler time same bound
    cases same
    cases bound
    exact ⟨delayed, spaced⟩

theorem cancel_timer_called {handler : Option TimedHandler} {called : TimedHandler}
    (cancelled : handler.map cancelTimer = some called) (unaborted : called ≠ .aborted) :
    handler = some called := by
  rcases Option.map_eq_some_iff.mp cancelled with ⟨before, found, same⟩
  rw [found]
  cases before with
  | waiting => exact absurd same.symm unaborted
  | _ => exact congrArg some same

theorem Paced.beginCancel (paced : future.Paced now) :
    Paced now { future with
      references := future.references - 1
      cancelling := future.cancelling + 1
      handler := future.handler.map cancelTimer } := by
  refine { paced with
    before := ?_
    ran := ?_
    next := ?_
    stopped := fun _ => .inr (.inl (Nat.succ_pos _))
    aborted := fun _ => .inr (Nat.succ_pos _) }
  · intro once called waits
    refine paced.before once ?_ ?_
    · intro none
      exact called (by rw [none]; rfl)
    · intro running
      exact waits (by rw [running]; rfl)
  · exact fun running => paced.ran (cancel_timer_called running nofun)
  · intro handler time same bound
    have called : handler ≠ .aborted := by
      intro aborted
      rw [aborted] at bound
      cases bound
    exact paced.next handler time (cancel_timer_called same called) bound

theorem Sound.advance (sound : future.Sound now) (taken : future.advance now action = some next) :
    next.Sound now := by
  obtain ⟨alive, kept⟩ := sound.alive taken
  cases advance_taken taken with
  | expire expiresAt found due =>
      refine held_sound (sound.toPaced.handler found nofun nofun nofun ?_) alive kept
        fun gone => nomatch gone.1
      exact fun time bound => ⟨expiresAt, rfl, Option.some.inj bound ▸ due⟩
  | handle found _ =>
      refine held_sound (sound.toPaced.handler found nofun nofun nofun ?_) alive kept
        fun gone => nomatch gone.1
      exact fun time bound => ⟨now, rfl, Nat.le_of_eq (Option.some.inj bound)⟩
  | leave reason =>
      refine settle_sound (sound.toPaced.dropHandler ?_) alive kept
      rcases reason with ⟨_, cancelled⟩ | aborted
      · exact .inl cancelled
      · exact (sound.aborted aborted).imp_right .inl
  | run found => exact held_sound (sound.toPaced.run found) alive kept fun gone => nomatch gone.1
  | again found repeats =>
      exact held_sound (sound.toPaced.finish found repeats) alive kept fun gone => nomatch gone.1
  | finish found once =>
      refine settle_sound (sound.toPaced.dropHandler (.inr (.inr ?_))) alive kept
      exact sound.completed.mpr ⟨once, sound.ran found⟩
  | beginCancel _ => exact held_sound sound.toPaced.beginCancel alive kept fun gone => nomatch gone.2.2
  | endCancel _ =>
      exact held_sound { sound.toPaced with stopped := fun _ => .inl rfl, aborted := fun _ => .inl rfl }
        alive kept fun gone => nomatch gone.2.1
  | share _ => exact held_sound { sound.toPaced with } alive kept fun gone => nomatch gone.2.1
  | release _ => exact settle_sound { sound.toPaced with } alive kept

/-- The runs of the task and the one that its handler is about to make. -/
def startedRuns (future : ScheduledTaskFuture) : Nat :=
  future.runTimes.length + if future.handler = some .tested then 1 else 0

theorem settle_started (future : ScheduledTaskFuture) :
    future.settle.runTimes = future.runTimes ∧ future.settle.handler = future.handler ∧
      future.settle.isCancelled = future.isCancelled := by
  unfold settle
  split <;> exact ⟨rfl, rfl, rfl⟩

theorem started_settle (future : ScheduledTaskFuture) :
    future.settle.startedRuns = future.startedRuns := by
  obtain ⟨times, handler, _⟩ := settle_started future
  rw [startedRuns, startedRuns, times, handler]

/-- A handler that finds the future cancelled does not run the task. -/
theorem advance_cancelled (taken : future.advance now action = some next)
    (cancelled : future.isCancelled = true) :
    next.isCancelled = true ∧ next.startedRuns ≤ future.startedRuns := by
  have dropped : future.dropHandler.isCancelled = true ∧
      future.dropHandler.startedRuns ≤ future.startedRuns := by
    refine ⟨(settle_started _).2.2.trans cancelled, ?_⟩
    rw [dropHandler, started_settle]
    exact Nat.le_add_right _ _
  cases advance_taken taken with
  | expire | again => exact ⟨cancelled, Nat.le_add_right _ _⟩
  | handle _ uncancelled =>
      rw [uncancelled] at cancelled
      cases cancelled
  | leave | finish => exact dropped
  | run found =>
      refine ⟨cancelled, ?_⟩
      simp [startedRuns, found]
  | beginCancel _ =>
      refine ⟨cancelled, Nat.add_le_add_left ?_ _⟩
      change (if future.handler.map cancelTimer = some .tested then 1 else 0) ≤ _
      split
      · rename_i tested
        exact Nat.le_of_eq (if_pos (cancel_timer_called tested nofun)).symm
      · exact Nat.zero_le _
  | endCancel => exact ⟨rfl, Nat.le_refl _⟩
  | share => exact ⟨cancelled, Nat.le_refl _⟩
  | release => exact ⟨(settle_started _).2.2.trans cancelled, Nat.le_of_eq (started_settle _)⟩

theorem settle_ioContext (future : ScheduledTaskFuture) :
    future.settle.ioContext = future.ioContext := by
  unfold settle
  split <;> rfl

theorem advance_ioContext (taken : future.advance now action = some next) :
    next.ioContext = future.ioContext := by
  cases advance_taken taken with
  | leave | finish | release => exact settle_ioContext _
  | _ => rfl

theorem advance_active (taken : future.advance now action = some next) (called : action ≠ .handle)
    (active : next.isActive = true) : future.isActive = true := by
  have known := of_decide_eq_true active
  apply decide_eq_true
  cases advance_taken taken with
  | handle | leave => exact absurd rfl called
  | expire | again => rcases known with impossible | impossible <;> cases impossible
  | run found => exact .inl found
  | finish found _ => exact .inr found
  | beginCancel =>
      exact known.imp (fun tested => cancel_timer_called tested nofun)
        fun running => cancel_timer_called running nofun
  | endCancel | share => exact known
  | release =>
      rw [(settle_started _).2.1] at known
      exact known

end ScheduledTaskFuture

namespace PostedTask

structure Sound (task : PostedTask) : Prop where
  runs : task.runs = if task.status = .posted then 0 else 1
  deletes : task.deletes = if task.status = .finished ∧ task.shouldDeleteTask then 1 else 0

theorem create_sound (ioContext : Nat) (shouldDeleteTask : Bool) :
    (create ioContext shouldDeleteTask).Sound :=
  ⟨rfl, rfl⟩

theorem Sound.run {task : PostedTask} (sound : task.Sound) (posted : task.status = .posted) :
    task.run.Sound := by
  have runs := sound.runs
  have deletes := sound.deletes
  rw [posted] at runs deletes
  exact ⟨congrArg (· + 1) runs, deletes⟩

theorem Sound.finish {task : PostedTask} (sound : task.Sound) (running : task.status = .running) :
    task.finish.Sound := by
  have runs := sound.runs
  have deletes := sound.deletes
  rw [running] at runs deletes
  refine ⟨runs, ?_⟩
  change (if task.shouldDeleteTask then task.deletes + 1 else task.deletes) = _
  rw [deletes]
  cases owned : task.shouldDeleteTask <;> simp [PostedTask.finish, owned]

end PostedTask

namespace TaskScheduler

variable {scheduler next : TaskScheduler} {label : Label}

/-- What holds of the tasks, the futures and the threads in every run. -/
structure Orderly (scheduler : TaskScheduler) : Prop where
  inRange : 0 < scheduler.ioContexts → scheduler.nextIoContext < scheduler.ioContexts
  single : ∀ ioContext, scheduler.active ioContext ≤ 1
  tasks : ∀ task ∈ scheduler.tasks, task.Sound
  ordered : scheduler.tasks.Pairwise fun earlier later =>
    earlier.ioContext = later.ioContext → later.status ≠ .posted → earlier.status = .finished
  futures : ∀ future ∈ scheduler.futures, future.Sound scheduler.now

theorem start_orderly (threadCount : Nat) : (start threadCount).Orderly :=
  ⟨id, fun _ => Nat.zero_le 1, fun _ => nofun, List.Pairwise.nil, fun _ => nofun⟩

theorem get_io_context_spec {ioContext : Nat} (got : scheduler.getIoContext = some (ioContext, next)) :
    ioContext = scheduler.nextIoContext ∧
      ∃ nextIoContext, next = { scheduler with nextIoContext } ∧ nextIoContext < scheduler.ioContexts := by
  unfold getIoContext at got
  split at got
  · rename_i bound
    cases got
    refine ⟨rfl, _, rfl, ?_⟩
    split
    · omega
    · omega
  · cases got

theorem Orderly.schedule (orderly : scheduler.Orderly) {shouldDeleteTask : Bool}
    (scheduled : scheduler.schedule shouldDeleteTask = some next) : next.Orderly := by
  rcases Option.map_eq_some_iff.mp scheduled with ⟨⟨ioContext, rest⟩, got, same⟩
  obtain ⟨_, nextIoContext, moved, bound⟩ := get_io_context_spec got
  subst moved
  subst same
  constructor
  · exact fun _ => bound
  · intro other
    have single := orderly.single other
    unfold active at single ⊢
    rw [List.countP_append, List.countP_singleton]
    simpa [PostedTask.isActive, PostedTask.create] using single
  · intro task member
    rcases List.mem_append.mp member with old | new
    · exact orderly.tasks task old
    · rw [List.mem_singleton.mp new]
      exact PostedTask.create_sound _ _
  · refine List.pairwise_append.mpr ⟨orderly.ordered, List.pairwise_singleton _ _, ?_⟩
    intro earlier _ later new _ started
    rw [List.mem_singleton.mp new] at started
    exact absurd rfl started
  · exact orderly.futures

theorem Orderly.scheduleTimedTask (orderly : scheduler.Orderly) {shouldDeleteTask : Bool}
    {delay interval : Nat}
    (scheduled : scheduler.scheduleTimedTask shouldDeleteTask delay interval = some next) :
      next.Orderly := by
  rcases Option.map_eq_some_iff.mp scheduled with ⟨⟨ioContext, rest⟩, got, same⟩
  obtain ⟨_, nextIoContext, moved, bound⟩ := get_io_context_spec got
  subst moved
  subst same
  constructor
  · exact fun _ => bound
  · intro other
    have single := orderly.single other
    unfold active at single ⊢
    rw [List.countP_append, List.countP_singleton]
    simpa [ScheduledTaskFuture.isActive, ScheduledTaskFuture.create,
      ScheduledTaskFuture.schedule] using single
  · exact orderly.tasks
  · exact orderly.ordered
  · intro future member
    rcases List.mem_append.mp member with old | new
    · exact orderly.futures future old
    · rw [List.mem_singleton.mp new]
      exact ScheduledTaskFuture.create_sound _ _ _ _ _

theorem count_set {Entry : Type} (observe : Entry → Bool) {entries : List Entry} {number : Nat}
    {entry : Entry} (found : entries[number]? = some entry) (changed : Entry) :
    (entries.set number changed).countP observe ≤ entries.countP observe + 1 ∧
      ((observe changed = true → observe entry = true) →
        (entries.set number changed).countP observe ≤ entries.countP observe) := by
  rcases set_at found with ⟨earlier, later, whole, replaced⟩
  rw [replaced changed, whole]
  simp only [List.countP_append, List.countP_cons]
  constructor
  · split <;> split <;> omega
  · intro already
    cases observed : observe changed with
    | true =>
        exact Nat.le_of_eq (by rw [already observed])
    | false =>
        simp

theorem Orderly.setTask (orderly : scheduler.Orderly) {number : Nat} {task changed : PostedTask}
    (found : scheduler.tasks[number]? = some task) (sound : changed.Sound)
    (context : changed.ioContext = task.ioContext)
    (free : changed.isActive = true → scheduler.active task.ioContext = 0)
    (earlier : ∀ other ∈ scheduler.tasks.take number, other.ioContext = task.ioContext →
      other.status = .finished)
    (later : changed.status = .finished ∨ task.status = .posted) :
    Orderly { scheduler with tasks := scheduler.tasks.set number changed } := by
  constructor
  · exact orderly.inRange
  · intro ioContext
    have single := orderly.single ioContext
    obtain ⟨one, none⟩ :=
      count_set (fun task => task.ioContext == ioContext && task.isActive) found changed
    unfold active at single ⊢
    dsimp only
    cases occupies : changed.ioContext == ioContext && changed.isActive with
    | false =>
        have fewer := none fun occupied => by rw [occupies] at occupied; cases occupied
        omega
    | true =>
        obtain ⟨same, isActive⟩ := Bool.and_eq_true_iff.mp occupies
        have idle := free isActive
        rw [← context, eq_of_beq same, active] at idle
        omega
  · intro other member
    rcases List.mem_or_eq_of_mem_set member with old | new
    · exact orderly.tasks other old
    · rw [new]
      exact sound
  · rcases split_at found with ⟨before, after, whole, _, place⟩
    have ordered := orderly.ordered
    dsimp only
    rw [whole, ← place, List.take_left] at earlier
    rw [whole, List.pairwise_append, List.pairwise_cons] at ordered
    rw [whole, ← place, List.set_append_right _ _ (Nat.le_refl _), Nat.sub_self, List.set_cons_zero,
      List.pairwise_append, List.pairwise_cons]
    obtain ⟨first, ⟨rest, last⟩, across⟩ := ordered
    refine ⟨first, ⟨?_, last⟩, ?_⟩
    · intro other member same started
      rw [context] at same
      rcases later with finished | posted
      · exact finished
      · have impossible := rest other member same started
        rw [posted] at impossible
        cases impossible
    · intro other member next among same started
      rcases List.mem_cons.mp among with new | old
      · rw [new, context] at same
        exact earlier other member same
      · exact across other member next (List.mem_cons_of_mem _ old) same started
  · exact orderly.futures

theorem Orderly.setFuture (orderly : scheduler.Orderly) {number : Nat}
    {future changed : ScheduledTaskFuture}
    {action : ScheduledTaskFuture.Action} (found : scheduler.futures[number]? = some future)
    (free : action = .handle → scheduler.active future.ioContext = 0)
    (taken : future.advance scheduler.now action = some changed) :
    Orderly { scheduler with futures := scheduler.futures.set number changed } := by
  constructor
  · exact orderly.inRange
  · intro ioContext
    have single := orderly.single ioContext
    have context := ScheduledTaskFuture.advance_ioContext taken
    obtain ⟨one, none⟩ :=
      count_set (fun future => future.ioContext == ioContext && future.isActive) found changed
    unfold active at single ⊢
    dsimp only
    by_cases called : action = .handle
    · cases same : future.ioContext == ioContext with
      | true =>
          have idle := free called
          rw [eq_of_beq same, active] at idle
          omega
      | false =>
          have fewer := none fun occupied => by rw [context, same] at occupied; cases occupied
          omega
    · have fewer := none fun occupied => by
        obtain ⟨same, isActive⟩ := Bool.and_eq_true_iff.mp occupied
        rw [context] at same
        exact Bool.and_eq_true_iff.mpr ⟨same, ScheduledTaskFuture.advance_active taken called isActive⟩
      omega
  · exact orderly.tasks
  · exact orderly.ordered
  · intro other member
    rcases List.mem_or_eq_of_mem_set member with old | new
    · exact orderly.futures other old
    · rw [new]
      exact (orderly.futures future (List.mem_of_getElem? found)).advance taken

theorem idle_handlers {ioContext : Nat} (idle : scheduler.active ioContext = 0) :
    (∀ task ∈ scheduler.tasks, task.ioContext = ioContext → task.status ≠ .running) ∧
      ∀ future ∈ scheduler.futures, future.ioContext = ioContext → future.isActive = false := by
  obtain ⟨tasks, futures⟩ := Nat.add_eq_zero_iff.mp idle
  constructor
  · intro task member context running
    apply List.countP_eq_zero.mp tasks task member
    rw [context, beq_self_eq_true, Bool.true_and]
    exact decide_eq_true running
  · intro future member context
    have unobserved := List.countP_eq_zero.mp futures future member
    rw [context, beq_self_eq_true, Bool.true_and] at unobserved
    exact Bool.eq_false_iff.mpr unobserved

theorem Orderly.earlier_finished (orderly : scheduler.Orderly) {number : Nat} {task : PostedTask}
    (found : scheduler.tasks[number]? = some task) (started : task.status ≠ .posted) :
    ∀ other ∈ scheduler.tasks.take number, other.ioContext = task.ioContext →
      other.status = .finished := by
  rcases split_at found with ⟨before, after, whole, _, place⟩
  have ordered := orderly.ordered
  rw [whole, List.pairwise_append] at ordered
  intro other member context
  rw [whole, ← place, List.take_left] at member
  exact ordered.2.2 other member task List.mem_cons_self context started

theorem future_step {number : Nat} {action : ScheduledTaskFuture.Action}
    (taken : Step scheduler (.future number action) next) :
    ∃ future changed, scheduler.futures[number]? = some future ∧
      (action = .handle → scheduler.active future.ioContext = 0) ∧
      future.advance scheduler.now action = some changed ∧
      next = { scheduler with futures := scheduler.futures.set number changed } := by
  rcases Option.bind_eq_some_iff.mp taken with ⟨future, found, advances⟩
  obtain ⟨free, advances⟩ := Option.ite_none_right_eq_some.mp advances
  rcases Option.map_eq_some_iff.mp advances with ⟨changed, moved, same⟩
  exact ⟨future, changed, found, free, moved, same.symm⟩

theorem Orderly.step (orderly : scheduler.Orderly) (taken : Step scheduler label next) :
    next.Orderly := by
  cases label with
  | elapse duration =>
      cases taken
      exact { orderly with futures := fun future member => (orderly.futures future member).elapse duration }
  | schedule shouldDeleteTask => exact orderly.schedule taken
  | scheduleTimedTask shouldDeleteTask delay interval => exact orderly.scheduleTimedTask taken
  | runTask number =>
      rcases Option.bind_eq_some_iff.mp taken with ⟨task, found, runs⟩
      obtain ⟨⟨posted, idle, first⟩, same⟩ := Option.ite_none_right_eq_some.mp runs
      cases same
      refine orderly.setTask found ((orderly.tasks task (List.mem_of_getElem? found)).run posted) rfl
        (fun _ => idle) ?_ (.inr posted)
      intro other member context
      have started := first other member context
      have free := (idle_handlers idle).1 other (List.mem_of_mem_take member) context
      cases status : other.status with
      | posted => exact absurd status started
      | running => exact absurd status free
      | finished => rfl
  | finishTask number =>
      rcases Option.bind_eq_some_iff.mp taken with ⟨task, found, ends⟩
      obtain ⟨running, same⟩ := Option.ite_none_right_eq_some.mp ends
      cases same
      refine orderly.setTask found ((orderly.tasks task (List.mem_of_getElem? found)).finish running) rfl
        nofun (orderly.earlier_finished found ?_) (.inl rfl)
      rw [running]
      exact nofun
  | future number action =>
      obtain ⟨future, changed, found, free, moved, same⟩ := future_step taken
      rw [same]
      exact orderly.setFuture found free moved

/-- A cancelled future stays where it is, and no further run is begun. -/
theorem cancelled_step (taken : Step scheduler label next) {number : Nat} {before : ScheduledTaskFuture}
    (found : scheduler.futures[number]? = some before) (cancelled : before.isCancelled = true) :
    ∃ after, next.futures[number]? = some after ∧ after.isCancelled = true ∧
      after.startedRuns ≤ before.startedRuns := by
  have kept : next.futures[number]? = some before → ∃ after, next.futures[number]? = some after ∧
      after.isCancelled = true ∧ after.startedRuns ≤ before.startedRuns :=
    fun same => ⟨before, same, cancelled, Nat.le_refl _⟩
  cases label with
  | elapse duration =>
      cases taken
      exact kept found
  | schedule shouldDeleteTask =>
      rcases Option.map_eq_some_iff.mp taken with ⟨⟨ioContext, rest⟩, got, same⟩
      obtain ⟨_, nextIoContext, moved, _⟩ := get_io_context_spec got
      subst moved
      subst same
      exact kept found
  | scheduleTimedTask shouldDeleteTask delay interval =>
      rcases Option.map_eq_some_iff.mp taken with ⟨⟨ioContext, rest⟩, got, same⟩
      obtain ⟨_, nextIoContext, moved, _⟩ := get_io_context_spec got
      subst moved
      subst same
      apply kept
      obtain ⟨bound, _⟩ := List.getElem?_eq_some_iff.mp found
      exact (List.getElem?_append_left bound).trans found
  | runTask other | finishTask other =>
      rcases Option.bind_eq_some_iff.mp taken with ⟨task, _, changes⟩
      obtain ⟨_, same⟩ := Option.ite_none_right_eq_some.mp changes
      cases same
      exact kept found
  | future other action =>
      obtain ⟨future, changed, place, _, moved, same⟩ := future_step taken
      subst same
      by_cases here : other = number
      · rw [here, found] at place
        cases place
        obtain ⟨stays, fewer⟩ := ScheduledTaskFuture.advance_cancelled moved cancelled
        refine ⟨changed, ?_, stays, fewer⟩
        obtain ⟨bound, _⟩ := List.getElem?_eq_some_iff.mp found
        rw [here, List.getElem?_set_self bound]
      · exact kept ((List.getElem?_set_ne here).trans found)

/-- The threads are inside of nothing and have nothing to call. -/
def Quiet (scheduler : TaskScheduler) : Prop :=
  ∀ label, label.isThread = true → scheduler.advance label = none

theorem Quiet.task_idle (quiet : scheduler.Quiet) {task : PostedTask} (member : task ∈ scheduler.tasks) :
    task.isActive = false := by
  apply Bool.eq_false_iff.mpr
  intro active
  have running := of_decide_eq_true active
  obtain ⟨number, found⟩ := List.getElem?_of_mem member
  have ends := quiet (.finishTask number) rfl
  rw [advance, found, Option.bind_some, if_pos running] at ends
  cases ends

theorem Quiet.future (quiet : scheduler.Quiet) {future : ScheduledTaskFuture}
    (member : future ∈ scheduler.futures) (action : ScheduledTaskFuture.Action)
    (thread : action.isThread = true) (free : action = .handle → scheduler.active future.ioContext = 0) :
    future.advance scheduler.now action = none := by
  obtain ⟨number, found⟩ := List.getElem?_of_mem member
  have stuck := quiet (.future number action) thread
  rw [advance, found, Option.bind_some, if_pos free] at stuck
  exact Option.map_eq_none_iff.mp stuck

theorem Quiet.future_idle (quiet : scheduler.Quiet) {future : ScheduledTaskFuture}
    (member : future ∈ scheduler.futures) : future.isActive = false := by
  apply Bool.eq_false_iff.mpr
  intro active
  rcases of_decide_eq_true active with tested | running
  · have runs := quiet.future member .run rfl nofun
    simp [ScheduledTaskFuture.advance, tested] at runs
  · have ends := quiet.future member .finish rfl nofun
    simp only [ScheduledTaskFuture.advance, running] at ends
    split at ends <;> cases ends

theorem Quiet.active (quiet : scheduler.Quiet) (ioContext : Nat) : scheduler.active ioContext = 0 := by
  refine Nat.add_eq_zero_iff.mpr ⟨List.countP_eq_zero.mpr ?_, List.countP_eq_zero.mpr ?_⟩
  · intro task member
    rw [quiet.task_idle member, Bool.and_false]
    exact nofun
  · intro future member
    rw [quiet.future_idle member, Bool.and_false]
    exact nofun

/-- The first task that waits could be run. -/
theorem Quiet.tasks (quiet : scheduler.Quiet) : ∀ task ∈ scheduler.tasks, task.status = .finished := by
  have started : ∀ (number : Nat) (task : PostedTask), scheduler.tasks[number]? = some task →
      task.status ≠ .posted := by
    intro number
    induction number using Nat.strongRecOn with
    | ind number induction =>
        intro task found posted
        have runs := quiet (.runTask number) rfl
        rw [advance, found, Option.bind_some, if_pos] at runs
        · cases runs
        · refine ⟨posted, quiet.active task.ioContext, ?_⟩
          intro earlier member _
          obtain ⟨index, place⟩ := List.getElem?_of_mem member
          obtain ⟨bound, _⟩ := List.getElem?_eq_some_iff.mp place
          have before : index < number := Nat.lt_of_lt_of_le bound (List.length_take_le _ _)
          rw [List.getElem?_take_of_lt before] at place
          exact induction index before earlier place
  intro task member
  obtain ⟨number, found⟩ := List.getElem?_of_mem member
  have idle := quiet.task_idle member
  cases status : task.status with
  | posted => exact absurd status (started number task found)
  | running =>
      rw [PostedTask.isActive, status] at idle
      cases idle
  | finished => rfl

theorem Quiet.handlers (quiet : scheduler.Quiet) {future : ScheduledTaskFuture}
    (member : future ∈ scheduler.futures) :
    future.handler = none ∨
      ∃ expiresAt, future.handler = some (.waiting expiresAt) ∧ scheduler.now < expiresAt := by
  have idle := quiet.future_idle member
  have free := quiet.active future.ioContext
  cases called : future.handler with
  | none => exact .inl rfl
  | some handler =>
      cases handler with
      | waiting expiresAt =>
          refine .inr ⟨expiresAt, rfl, Nat.lt_of_not_le ?_⟩
          intro due
          have expires := quiet.future member .expire rfl nofun
          simp [ScheduledTaskFuture.advance, called, due] at expires
      | expired =>
          have handles := quiet.future member .handle rfl fun _ => free
          simp only [ScheduledTaskFuture.advance, called] at handles
          split at handles <;> cases handles
      | aborted =>
          have handles := quiet.future member .handle rfl fun _ => free
          simp [ScheduledTaskFuture.advance, called] at handles
      | tested | running =>
          rw [ScheduledTaskFuture.isActive, called] at idle
          cases idle

theorem step_ioContexts (taken : Step scheduler label next) :
    next.ioContexts = scheduler.ioContexts := by
  cases label with
  | elapse duration => cases taken; rfl
  | schedule | scheduleTimedTask =>
      rcases Option.map_eq_some_iff.mp taken with ⟨⟨ioContext, rest⟩, got, same⟩
      obtain ⟨_, nextIoContext, moved, _⟩ := get_io_context_spec got
      subst moved
      subst same
      rfl
  | runTask number | finishTask number =>
      rcases Option.bind_eq_some_iff.mp taken with ⟨task, _, changes⟩
      obtain ⟨_, same⟩ := Option.ite_none_right_eq_some.mp changes
      cases same
      rfl
  | future number action =>
      obtain ⟨_, _, _, _, _, same⟩ := future_step taken
      rw [same]

theorem run_orderly {threadCount : Nat} {labels : List Label} {last : TaskScheduler}
    (run : Run Step (start threadCount) labels last) : last.Orderly ∧ last.ioContexts = threadCount := by
  apply run.invariant fun _ scheduler => scheduler.Orderly ∧ scheduler.ioContexts = threadCount
  · exact ⟨start_orderly threadCount, rfl⟩
  · rintro _ scheduler label next ⟨orderly, same⟩ taken
    exact ⟨orderly.step taken, (step_ioContexts taken).trans same⟩

theorem run_cancelled {labels : List Label} {first last : TaskScheduler}
    (run : Run Step first labels last)
    {number : Nat} {before : ScheduledTaskFuture} (found : first.futures[number]? = some before)
    (cancelled : before.isCancelled = true) :
    ∃ after, last.futures[number]? = some after ∧ after.isCancelled = true ∧
      after.startedRuns ≤ before.startedRuns := by
  apply run.invariant fun _ scheduler => ∃ after, scheduler.futures[number]? = some after ∧
    after.isCancelled = true ∧ after.startedRuns ≤ before.startedRuns
  · exact ⟨before, found, cancelled, Nat.le_refl _⟩
  · rintro _ scheduler label next ⟨middle, place, stays, fewer⟩ taken
    obtain ⟨after, there, still, less⟩ := cancelled_step taken place stays
    exact ⟨after, there, still, Nat.le_trans less fewer⟩

/-- In every run no thread is inside of two handlers. A posted task is run once, after those that
were posted to its context before, and deleted after its run when it is owned. A timed task is
never run before its delay and never sooner than an interval after its last run, without an
interval at most once, and not again once it is deleted, which happens when nobody has the
future any more. When `cancel` has returned, only a run whose handler had seen the future before
is still made. -/
theorem scheduled_tasks_run {threadCount : Nat} (threads : 0 < threadCount) {labels : List Label}
    {last : TaskScheduler} (run : Run Step (start threadCount) labels last) :
    last.nextIoContext < threadCount ∧ (∀ ioContext, last.active ioContext ≤ 1) ∧
      (∀ task ∈ last.tasks, task.runs = (if task.status = .posted then 0 else 1) ∧
        task.deletes = if task.status = .finished ∧ task.shouldDeleteTask then 1 else 0) ∧
      (last.tasks.Pairwise fun earlier later =>
        earlier.ioContext = later.ioContext → later.status ≠ .posted → earlier.status = .finished) ∧
      (∀ future ∈ last.futures,
        (∀ index time, future.runTimes[index]? = some time →
          future.scheduledAt + future.delay + index * future.interval ≤ time) ∧
        (future.runTimes.Pairwise fun earlier later => earlier + future.interval ≤ later) ∧
        (future.interval = 0 → future.runTimes.length ≤ 1) ∧
        (future.isCompleted = true ↔ future.interval = 0 ∧ future.runTimes ≠ []) ∧
        (future.isDestroyed = true ↔
          future.handler = none ∧ future.references = 0 ∧ future.cancelling = 0) ∧
        future.deletes = (if future.isDestroyed && future.shouldDeleteTask then 1 else 0) ∧
        (future.isDestroyed = true → ∀ time action, future.advance time action = none)) ∧
      ∀ later next, Run Step last later next → ∀ (number : Nat) (before : ScheduledTaskFuture),
        last.futures[number]? = some before → before.isCancelled = true →
        ∃ after, next.futures[number]? = some after ∧ after.isCancelled = true ∧
          after.runTimes.length ≤
            before.runTimes.length + if before.handler = some .tested then 1 else 0 := by
  obtain ⟨orderly, contexts⟩ := run_orderly run
  rw [← contexts] at threads ⊢
  refine ⟨orderly.inRange threads, orderly.single, ?_, orderly.ordered, ?_, ?_⟩
  · exact fun task member => ⟨(orderly.tasks task member).runs, (orderly.tasks task member).deletes⟩
  · intro future member
    have sound := orderly.futures future member
    exact ⟨sound.delayed, sound.spaced, sound.once, sound.completed, sound.destroyed, sound.deletes,
      sound.destroyed_final⟩
  · intro later next rest number before found cancelled
    obtain ⟨after, there, still, fewer⟩ := run_cancelled rest found cancelled
    exact ⟨after, there, still, Nat.le_trans (Nat.le_add_right _ _) fewer⟩

/-- When no thread can do anything, every posted task has been run and every timer that was due has
been handled: a future without a wait has run its task or is being cancelled, and it is gone with its
task when nobody has it. -/
theorem quiet_scheduler_has_run {threadCount : Nat} {labels : List Label} {last : TaskScheduler}
    (run : Run Step (start threadCount) labels last) (quiet : last.Quiet) :
    (∀ task ∈ last.tasks, task.runs = 1 ∧ task.deletes = if task.shouldDeleteTask then 1 else 0) ∧
      ∀ future ∈ last.futures,
        (∃ expiresAt, future.handler = some (.waiting expiresAt) ∧ last.now < expiresAt) ∨
          (future.isCancelled = true ∨ 0 < future.cancelling ∨
            future.interval = 0 ∧ future.runTimes.length = 1) ∧
          (future.references = 0 → future.cancelling = 0 →
            future.isDestroyed = true ∧ future.deletes = if future.shouldDeleteTask then 1 else 0) := by
  obtain ⟨orderly, _⟩ := run_orderly run
  constructor
  · intro task member
    obtain ⟨runs, deletes⟩ := orderly.tasks task member
    have finished := quiet.tasks task member
    rw [finished] at runs
    refine ⟨runs, ?_⟩
    simpa [finished] using deletes
  · intro future member
    have sound := orderly.futures future member
    rcases quiet.handlers member with ended | waits
    · refine .inr ⟨(sound.stopped ended).imp_right (Or.imp_right fun completed => ?_), ?_⟩
      · obtain ⟨once, ran⟩ := sound.completed.mp completed
        exact ⟨once, Nat.le_antisymm (sound.once once) (List.length_pos_iff.mpr ran)⟩
      · intro unreferenced uncancelled
        have destroyed := sound.destroyed.mpr ⟨ended, unreferenced, uncancelled⟩
        refine ⟨destroyed, ?_⟩
        rw [sound.deletes, destroyed, Bool.true_and]
    · exact .inl waits

section Concrete

/-- An owned task is posted, another waits for 5 milliseconds, and a third is repeated until it is
cancelled while it runs. -/
def cancelledWhileRunning : List Label :=
  [.schedule true, .scheduleTimedTask true 5 0, .scheduleTimedTask false 3 4, .elapse 3, .runTask 0,
    .future 1 .expire, .finishTask 0, .future 1 .handle, .future 1 .run, .future 1 .beginCancel,
    .future 1 .endCancel, .future 1 .finish, .elapse 4, .future 0 .expire, .future 1 .expire,
    .future 0 .handle, .future 0 .run, .future 0 .finish, .future 0 .release, .future 1 .handle,
    .future 1 .release]

theorem scheduled_tasks_run_cancelled : ∃ last, Run Step (start 2) cancelledWhileRunning last ∧
    last.futures.map (fun future => (future.runTimes, future.deletes)) = [([7], 1), ([3], 0)] ∧
    last.nextIoContext < 2 := by
  have executes : (execute advance (start 2) cancelledWhileRunning).map
      (fun last => last.futures.map fun future => (future.runTimes, future.deletes)) =
        some [([7], 1), ([3], 0)] := by
    decide +kernel
  rcases Run.of_observed Step (fun _ _ _ taken => taken) executes with ⟨last, run, observed⟩
  exact ⟨last, run, observed, (scheduled_tasks_run (by decide) run).1⟩

def ended (scheduler : TaskScheduler) : Bool :=
  scheduler.tasks.all (fun task => task.status == .finished) &&
    scheduler.futures.all fun future => future.handler == none

theorem quiet_of_ended (done : scheduler.ended = true) : scheduler.Quiet := by
  obtain ⟨tasks, futures⟩ := Bool.and_eq_true_iff.mp done
  rw [List.all_eq_true] at tasks futures
  intro label thread
  cases label with
  | elapse | schedule | scheduleTimedTask => cases thread
  | runTask number | finishTask number =>
      rw [advance, Option.bind_eq_none_iff]
      intro task found
      have finished := eq_of_beq (tasks task (List.mem_of_getElem? found))
      exact if_neg (by simp [finished])
  | future number action =>
      rw [advance, Option.bind_eq_none_iff]
      intro future found
      have none := eq_of_beq (futures future (List.mem_of_getElem? found))
      split
      · rw [Option.map_eq_none_iff]
        cases action with
        | expire | handle | run | finish => simp [ScheduledTaskFuture.advance, none]
        | _ => cases thread
      · rfl

theorem quiet_scheduler_has_run_cancelled : ∃ last, Run Step (start 2) cancelledWhileRunning last ∧
    last.tasks.length = 1 ∧ ∀ task ∈ last.tasks, task.runs = 1 := by
  have executes : (execute advance (start 2) cancelledWhileRunning).map
      (fun last => (last.ended, last.tasks.length)) = some (true, 1) := by
    decide +kernel
  rcases Run.of_observed Step (fun _ _ _ taken => taken) executes with ⟨last, run, observed⟩
  have done := quiet_of_ended (congrArg Prod.fst observed)
  exact ⟨last, run, congrArg Prod.snd observed, fun task member =>
    ((quiet_scheduler_has_run run done).1 task member).1⟩

end Concrete

end TaskScheduler

end Sne.Base
