import Sne.Library.Runs
import Sne.Srpc.RpcTypes

/-!
# The scheduler of the database proxy

`ProxyScheduler.cpp`. Any number of workers take requests from one queue. A region
under the lock is one step, and so is each test of `stop_` by the loop of `svc`,
which reads the flag without the lock. A wait for the condition variable ends when it
is notified or for no reason, so that a waiting worker may go on at any time.
-/

namespace Sne.Database

open Sne.Srpc Sne.Library.Runs

set_option autoImplicit false

abbrev RequestId := UInt32

/-- `pointer` is the object itself: ids come again after 2^32 requests. -/
structure RequestMethod where
  id : RequestId
  priority : RequestPriority
  request : ModifyRequest
  pointer : Nat
  deriving DecidableEq, Repr

def RequestMethod.less (left right : RequestMethod) : Bool :=
  decide (left.priority.toByte < right.priority.toByte)

inductive Worker where
  | testing
  | fetching
  | waiting
  | calling (method : RequestMethod)
  | finished
  deriving DecidableEq, Repr

namespace Worker

/-- Past the test of the loop and without a request yet. -/
def inFetch : Worker → Bool
  | fetching => true
  | waiting => true
  | _ => false

def inHand : Worker → List Nat
  | calling method => [method.pointer]
  | _ => []

end Worker

/-- The last four fields are observations: the number of requests created so far and of
those created when `stop` began, the requests whose `call` has returned, and whether
`stop` has returned. -/
structure ProxyScheduler where
  requestQueue : List RequestMethod
  requestId : RequestId
  stop : Bool
  queuedCount : UInt64
  processedCount : UInt64
  threads : List Worker
  created : Nat
  createdBeforeStop : Nat
  called : List Nat
  joined : Bool
  deriving DecidableEq, Repr

namespace ProxyScheduler

def start (threadCount : Nat) : ProxyScheduler :=
  { requestQueue := []
    requestId := 0
    stop := false
    queuedCount := 0
    processedCount := 0
    threads := List.replicate threadCount .testing
    created := 0
    createdBeforeStop := 0
    called := []
    joined := false }

def setWorker (worker : Nat) (state : Worker) (scheduler : ProxyScheduler) : ProxyScheduler :=
  { scheduler with threads := scheduler.threads.set worker state }

def schedule (request : ModifyRequest) (scheduler : ProxyScheduler) : ProxyScheduler :=
  let currentRequestId := scheduler.requestId + 1
  let method : RequestMethod :=
    { id := currentRequestId, priority := request.priority, request, pointer := scheduler.created }
  { scheduler with
    requestId := currentRequestId
    requestQueue := scheduler.requestQueue ++ [method]
    queuedCount := scheduler.queuedCount + 1
    created := scheduler.created + 1 }

/-- A request that the priority queue may have on top: none is greater. Which of several
it is, the queue decides. -/
def top (index : Nat) (scheduler : ProxyScheduler) : Option RequestMethod :=
  scheduler.requestQueue[index]?.filter fun method =>
    scheduler.requestQueue.all fun other => !method.less other

def fetchRequest (worker index : Nat) (scheduler : ProxyScheduler) : Option ProxyScheduler :=
  if scheduler.requestQueue.isEmpty then
    some (scheduler.setWorker worker (if scheduler.stop then .testing else .waiting))
  else
    (scheduler.top index).map fun requestMethod =>
      { scheduler.setWorker worker (.calling requestMethod) with
        requestQueue := scheduler.requestQueue.eraseIdx index
        processedCount := scheduler.processedCount + 1 }

inductive Label where
  | schedule (request : ModifyRequest)
  | test (worker : Nat)
  | fetch (worker index : Nat)
  | wake (worker : Nat)
  | call (worker : Nat)
  | stop
  | join
  deriving DecidableEq, Repr

/-- `stop` is called once: it sets the flag, and returns when all threads have ended. -/
def advance (scheduler : ProxyScheduler) : Label → Option ProxyScheduler
  | .schedule request => some (scheduler.schedule request)
  | .test worker =>
      if scheduler.threads[worker]? = some .testing then
        some (scheduler.setWorker worker (if scheduler.stop then .finished else .fetching))
      else
        none
  | .fetch worker index =>
      if scheduler.threads[worker]? = some .fetching then
        scheduler.fetchRequest worker index
      else
        none
  | .wake worker =>
      if scheduler.threads[worker]? = some .waiting then
        some (scheduler.setWorker worker .fetching)
      else
        none
  | .call worker =>
      match scheduler.threads[worker]? with
      | some (.calling method) =>
          some { scheduler.setWorker worker .testing with
            called := scheduler.called ++ [method.pointer] }
      | _ => none
  | .stop =>
      if scheduler.stop then
        none
      else
        some { scheduler with stop := true, createdBeforeStop := scheduler.created }
  | .join =>
      if scheduler.stop ∧ ∀ worker ∈ scheduler.threads, worker = .finished then
        some { scheduler with joined := true }
      else
        none

def Step (scheduler : ProxyScheduler) (label : Label) (next : ProxyScheduler) : Prop :=
  scheduler.advance label = some next

/-- The places where a request is: queued, with a worker, or done. -/
def occurrences (pointer : Nat) (scheduler : ProxyScheduler) : Nat :=
  (scheduler.requestQueue.map (·.pointer)).count pointer +
    (scheduler.threads.flatMap Worker.inHand).count pointer + scheduler.called.count pointer

/-- The workers that will look at the queue once more, whatever `stop_` is. -/
def fetchers (scheduler : ProxyScheduler) : Nat := scheduler.threads.countP Worker.inFetch

/-- The queued requests that may be fetched before this one, and this one. -/
def rivals (method : RequestMethod) (scheduler : ProxyScheduler) : Nat :=
  scheduler.requestQueue.countP fun other => !other.less method

section Workers

variable {scheduler : ProxyScheduler} {worker : Nat} {old : Worker}

theorem set_worker_in_hand (found : scheduler.threads[worker]? = some old) (new : Worker)
    (pointer : Nat) :
    ((scheduler.setWorker worker new).threads.flatMap Worker.inHand).count pointer +
        old.inHand.count pointer =
      (scheduler.threads.flatMap Worker.inHand).count pointer + new.inHand.count pointer := by
  rcases set_at found with ⟨earlier, later, whole, changes⟩
  rw [setWorker, changes, whole]
  simp only [List.flatMap_append, List.flatMap_cons, List.count_append]
  omega

theorem set_worker_fetchers (found : scheduler.threads[worker]? = some old) (new : Worker) :
    (scheduler.setWorker worker new).fetchers + (if old.inFetch then 1 else 0) =
      scheduler.fetchers + (if new.inFetch then 1 else 0) := by
  rcases set_at found with ⟨earlier, later, whole, changes⟩
  rw [fetchers, setWorker, changes, fetchers, whole]
  simp only [List.countP_append, List.countP_cons]
  omega

end Workers

/-- What `fetchRequest` takes from a queue that is not empty. -/
theorem top_splits {scheduler : ProxyScheduler} {index : Nat} {method : RequestMethod}
    (taken : scheduler.top index = some method) :
    ∃ earlier later, scheduler.requestQueue = earlier ++ method :: later ∧
      scheduler.requestQueue.eraseIdx index = earlier ++ later ∧
      ∀ other ∈ scheduler.requestQueue, method.less other = false := by
  rcases Option.filter_eq_some_iff.mp taken with ⟨found, greatest⟩
  rcases split_at found with ⟨earlier, later, whole, erased, _⟩
  refine ⟨earlier, later, whole, erased, ?_⟩
  intro other member
  have least := List.all_eq_true.mp greatest other member
  exact (Bool.not_eq_true' _).mp least

theorem fetch_request_cases {scheduler next : ProxyScheduler} {worker index : Nat}
    (fetched : scheduler.fetchRequest worker index = some next) :
    (scheduler.requestQueue = [] ∧
      next = scheduler.setWorker worker (if scheduler.stop then .testing else .waiting)) ∨
    ∃ method, scheduler.top index = some method ∧
      next = { scheduler.setWorker worker (.calling method) with
        requestQueue := scheduler.requestQueue.eraseIdx index
        processedCount := scheduler.processedCount + 1 } := by
  unfold fetchRequest at fetched
  split at fetched
  · rename_i none
    left
    exact ⟨List.isEmpty_iff.mp none, (Option.some.inj fetched).symm⟩
  · right
    rcases Option.map_eq_some_iff.mp fetched with ⟨method, taken, same⟩
    exact ⟨method, taken, same.symm⟩

inductive Taken (scheduler : ProxyScheduler) : Label → ProxyScheduler → Prop where
  | schedule (request : ModifyRequest) : Taken scheduler (.schedule request) (scheduler.schedule request)
  | test (worker : Nat) : scheduler.threads[worker]? = some .testing →
      Taken scheduler (.test worker)
        (scheduler.setWorker worker (if scheduler.stop then .finished else .fetching))
  | fetchNone (worker index : Nat) : scheduler.threads[worker]? = some .fetching →
      scheduler.requestQueue = [] →
      Taken scheduler (.fetch worker index)
        (scheduler.setWorker worker (if scheduler.stop then .testing else .waiting))
  | fetch (worker index : Nat) (method : RequestMethod) :
      scheduler.threads[worker]? = some .fetching → scheduler.top index = some method →
      Taken scheduler (.fetch worker index)
        { scheduler.setWorker worker (.calling method) with
          requestQueue := scheduler.requestQueue.eraseIdx index
          processedCount := scheduler.processedCount + 1 }
  | wake (worker : Nat) : scheduler.threads[worker]? = some .waiting →
      Taken scheduler (.wake worker) (scheduler.setWorker worker .fetching)
  | call (worker : Nat) (method : RequestMethod) :
      scheduler.threads[worker]? = some (.calling method) →
      Taken scheduler (.call worker)
        { scheduler.setWorker worker .testing with called := scheduler.called ++ [method.pointer] }
  | stop : scheduler.stop = false →
      Taken scheduler .stop { scheduler with stop := true, createdBeforeStop := scheduler.created }
  | join : scheduler.stop = true → (∀ worker ∈ scheduler.threads, worker = .finished) →
      Taken scheduler .join { scheduler with joined := true }

theorem step_taken {scheduler next : ProxyScheduler} {label : Label} (step : Step scheduler label next) :
    Taken scheduler label next := by
  unfold Step advance at step
  cases label with
  | schedule request =>
      cases step
      exact .schedule request
  | test worker =>
      dsimp only at step
      split at step
      · rename_i found
        cases step
        exact .test worker found
      · cases step
  | fetch worker index =>
      dsimp only at step
      split at step
      · rename_i found
        rcases fetch_request_cases step with ⟨none, same⟩ | ⟨method, taken, same⟩
        · rw [same]
          exact .fetchNone worker index found none
        · rw [same]
          exact .fetch worker index method found taken
      · cases step
  | wake worker =>
      dsimp only at step
      split at step
      · rename_i found
        cases step
        exact .wake worker found
      · cases step
  | call worker =>
      dsimp only at step
      split at step
      · rename_i method found
        cases step
        exact .call worker method found
      · cases step
  | stop =>
      dsimp only at step
      split at step
      · cases step
      · rename_i running
        cases step
        exact .stop (Bool.eq_false_iff.mpr running)
  | join =>
      dsimp only at step
      split at step
      · rename_i ended
        cases step
        exact .join ended.1 ended.2
      · cases step

/-- Every request that was created is in exactly one place. -/
def Accounted (scheduler : ProxyScheduler) : Prop :=
  ∀ pointer, scheduler.occurrences pointer = if pointer < scheduler.created then 1 else 0

theorem Accounted.set_worker {scheduler : ProxyScheduler} {worker : Nat} {old : Worker}
    (accounted : scheduler.Accounted) (found : scheduler.threads[worker]? = some old) (new : Worker)
    (same : new.inHand = old.inHand) : (scheduler.setWorker worker new).Accounted := by
  intro pointer
  have before := accounted pointer
  have hands := set_worker_in_hand found new pointer
  rw [same] at hands
  unfold occurrences at before ⊢
  change _ + _ + scheduler.called.count pointer = if pointer < scheduler.created then 1 else 0
  rw [← before, Nat.add_right_cancel hands]
  rfl

theorem accounted_kept {scheduler next : ProxyScheduler} {label : Label}
    (taken : Taken scheduler label next) (accounted : scheduler.Accounted) : next.Accounted := by
  cases taken with
  | schedule request =>
      intro pointer
      have before := accounted pointer
      unfold occurrences at before ⊢
      have queued : ((scheduler.schedule request).requestQueue.map (·.pointer)).count pointer =
          (scheduler.requestQueue.map (·.pointer)).count pointer +
            if scheduler.created = pointer then 1 else 0 := by
        simp only [schedule, List.map_append, List.map_cons, List.map_nil, List.count_append,
          List.count_singleton, beq_iff_eq]
      rw [queued]
      change _ + _ + scheduler.called.count pointer = if pointer < scheduler.created + 1 then 1 else 0
      rcases Nat.lt_trichotomy pointer scheduler.created with old | new | none
      · rw [if_pos old] at before
        rw [if_neg (Nat.ne_of_gt old), if_pos (Nat.lt_succ_of_lt old), ← before]
        rfl
      · rw [if_neg (by omega)] at before
        rw [if_pos new.symm, if_pos (by omega)]
        change _ + 1 + (scheduler.threads.flatMap Worker.inHand).count pointer + _ = 1
        omega
      · rw [if_neg (by omega)] at before
        rw [if_neg (by omega), if_neg (by omega)]
        exact before
  | test worker found =>
      apply accounted.set_worker found
      cases scheduler.stop <;> rfl
  | fetchNone worker index found none =>
      apply accounted.set_worker found
      cases scheduler.stop <;> rfl
  | fetch worker index method found top =>
      intro pointer
      have before := accounted pointer
      have hands := set_worker_in_hand found (.calling method) pointer
      unfold occurrences at before ⊢
      rcases top_splits top with ⟨earlier, later, whole, erased, _⟩
      simp only [whole, List.map_append, List.map_cons, List.count_append, List.count_cons] at before
      simp only [Worker.inHand, List.count_nil, List.count_cons] at hands
      simp only [erased, List.map_append, List.count_append]
      change _ + scheduler.called.count pointer = if pointer < scheduler.created then 1 else 0
      dsimp only [setWorker] at hands ⊢
      rw [← before]
      omega
  | wake worker found => exact accounted.set_worker found .fetching rfl
  | call worker method found =>
      intro pointer
      have before := accounted pointer
      have hands := set_worker_in_hand found .testing pointer
      unfold occurrences at before ⊢
      simp only [Worker.inHand, List.count_nil, List.count_cons] at hands
      simp only [List.count_append, List.count_cons, List.count_nil]
      change _ = if pointer < scheduler.created then 1 else 0
      dsimp only [setWorker] at hands ⊢
      rw [← before]
      omega
  | stop _ => exact accounted
  | join _ _ => exact accounted

/-- The requests that are queued when `stop` begins are at most as many as the workers
that look at the queue once more, and no request that is scheduled later takes the place
of one of them. -/
def EarlyTaken (scheduler : ProxyScheduler) : Label → Prop
  | .schedule request =>
      scheduler.stop = true → ∀ method ∈ scheduler.requestQueue,
        method.pointer < scheduler.createdBeforeStop →
        method.priority.toByte ≤ request.priority.toByte →
        scheduler.rivals method < scheduler.fetchers
  | .stop => scheduler.requestQueue.length ≤ scheduler.fetchers
  | _ => True

instance (scheduler : ProxyScheduler) (label : Label) : Decidable (scheduler.EarlyTaken label) :=
  match label with
  | .schedule request =>
      inferInstanceAs (Decidable (scheduler.stop = true → ∀ method ∈ scheduler.requestQueue,
        method.pointer < scheduler.createdBeforeStop →
        method.priority.toByte ≤ request.priority.toByte →
        scheduler.rivals method < scheduler.fetchers))
  | .stop => inferInstanceAs (Decidable (scheduler.requestQueue.length ≤ scheduler.fetchers))
  | .test _ => .isTrue trivial
  | .fetch _ _ => .isTrue trivial
  | .wake _ => .isTrue trivial
  | .call _ => .isTrue trivial
  | .join => .isTrue trivial

/-- Workers enough are left for every early request and for those that may be fetched
before it. -/
def Covered (scheduler : ProxyScheduler) : Prop :=
  scheduler.stop = true → ∀ method ∈ scheduler.requestQueue,
    method.pointer < scheduler.createdBeforeStop → scheduler.rivals method ≤ scheduler.fetchers

/-- A worker that stays inside `fetchRequest`, or stays outside. -/
theorem Covered.set_worker {scheduler : ProxyScheduler} {worker : Nat} {old : Worker}
    (covered : scheduler.Covered) (found : scheduler.threads[worker]? = some old) (new : Worker)
    (same : new.inFetch = old.inFetch) : (scheduler.setWorker worker new).Covered := by
  have counted := set_worker_fetchers found new
  rw [same] at counted
  unfold Covered
  rw [Nat.add_right_cancel counted]
  exact covered

theorem rivals_schedule (scheduler : ProxyScheduler) (request : ModifyRequest) (method : RequestMethod) :
    (scheduler.schedule request).rivals method = scheduler.rivals method +
      if method.priority.toByte ≤ request.priority.toByte then 1 else 0 := by
  simp [rivals, schedule, List.countP_append, RequestMethod.less]

theorem covered_kept {scheduler next : ProxyScheduler} {label : Label}
    (taken : Taken scheduler label next) (condition : scheduler.EarlyTaken label)
    (known : scheduler.createdBeforeStop ≤ scheduler.created) (covered : scheduler.Covered) :
    next.Covered := by
  cases taken with
  | schedule request =>
      intro stopping method member early
      change method.pointer < scheduler.createdBeforeStop at early
      rw [rivals_schedule]
      change _ ≤ scheduler.fetchers
      have queued : method ∈ scheduler.requestQueue := by
        rcases List.mem_append.mp member with queued | new
        · exact queued
        · rw [List.mem_singleton.mp new] at early
          exact absurd early (Nat.not_lt.mpr known)
      split
      · rename_i rival
        exact condition stopping method queued early rival
      · exact covered stopping method queued early
  | test worker found =>
      by_cases stopping : scheduler.stop = true
      · rw [if_pos stopping]
        exact covered.set_worker found .finished rfl
      · intro stopped
        exact absurd stopped stopping
  | fetchNone worker index found none =>
      intro _ method member
      change method ∈ scheduler.requestQueue at member
      rw [none] at member
      cases member
  | fetch worker index method found top =>
      intro stopping other member early
      rcases top_splits top with ⟨earlier, later, whole, erased, greatest⟩
      change other ∈ scheduler.requestQueue.eraseIdx index at member
      change (scheduler.requestQueue.eraseIdx index).countP _ ≤
        (scheduler.setWorker worker (.calling method)).fetchers
      rw [erased] at member ⊢
      have queued : other ∈ scheduler.requestQueue := by
        rw [whole]
        rcases List.mem_append.mp member with front | back
        · exact List.mem_append_left _ front
        · exact List.mem_append_right _ (List.mem_cons_of_mem _ back)
      have enough := covered stopping other queued early
      have counted := set_worker_fetchers found (.calling method)
      -- what is fetched is a rival of every request that stays
      unfold rivals at enough
      rw [whole, List.countP_append, List.countP_cons, greatest other queued] at enough
      rw [List.countP_append]
      simp only [Worker.inFetch, Bool.not_false, if_true, Bool.false_eq_true, if_false] at enough counted
      omega
  | wake worker found => exact covered.set_worker found .fetching rfl
  | call worker method found => exact covered.set_worker found .testing rfl
  | stop _ =>
      intro _ method _ _
      exact Nat.le_trans List.countP_le_length condition
  | join _ _ => exact covered

def Ended (scheduler : ProxyScheduler) : Prop :=
  scheduler.joined = true → scheduler.stop = true ∧ ∀ worker ∈ scheduler.threads, worker = .finished

theorem Ended.set_worker {scheduler : ProxyScheduler} {worker : Nat} {old : Worker}
    (ended : scheduler.Ended) (found : scheduler.threads[worker]? = some old) (alive : old ≠ .finished)
    (new : Worker) : (scheduler.setWorker worker new).Ended := by
  intro joined
  exact absurd ((ended joined).2 old (List.mem_of_getElem? found)) alive

theorem ended_kept {scheduler next : ProxyScheduler} {label : Label}
    (taken : Taken scheduler label next) (ended : scheduler.Ended) : next.Ended := by
  cases taken with
  | schedule request => exact ended
  | test worker found => exact ended.set_worker found (by decide) _
  | fetchNone worker index found none => exact ended.set_worker found (by decide) _
  | fetch worker index method found top => exact ended.set_worker found (by decide) (.calling method)
  | wake worker found => exact ended.set_worker found (by decide) _
  | call worker method found =>
      have alive : Worker.calling method ≠ .finished := by
        intro same
        cases same
      exact ended.set_worker found alive .testing
  | stop running =>
      intro joined
      exact absurd ((ended joined).1.symm.trans running) (by decide)
  | join stopping finished =>
      intro _
      exact ⟨stopping, finished⟩

def Label.isSchedule : Label → Bool
  | .schedule _ => true
  | _ => false

structure Counts (history : List Label) (scheduler : ProxyScheduler) : Prop where
  created : scheduler.created = history.countP Label.isSchedule
  known : scheduler.createdBeforeStop ≤ scheduler.created
  beforeStop : ∀ before after, history = before ++ .stop :: after →
    scheduler.stop = true ∧ scheduler.createdBeforeStop = before.countP Label.isSchedule

theorem counts_kept {history : List Label} {scheduler next : ProxyScheduler} {label : Label}
    (taken : Taken scheduler label next) (counts : scheduler.Counts history) :
    next.Counts (history ++ [label]) := by
  have earlier : ∀ before after, history ++ [label] = before ++ .stop :: after →
      (label = .stop ∧ before = history) ∨
      (scheduler.stop = true ∧ scheduler.createdBeforeStop = before.countP Label.isSchedule) := by
    intro before after split
    rcases List.eq_nil_or_concat after with rfl | ⟨more, last, rfl⟩
    · rcases List.append_inj' split rfl with ⟨whole, same⟩
      exact .inl ⟨List.head_eq_of_cons_eq same, whole.symm⟩
    · rw [List.concat_eq_append, ← List.cons_append, ← List.append_assoc] at split
      rcases List.append_inj' split rfl with ⟨whole, _⟩
      exact .inr (counts.beforeStop before more whole)
  have createdNext : next.created = (history ++ [label]).countP Label.isSchedule := by
    rw [List.countP_append, ← counts.created]
    cases taken <;> rfl
  cases taken with
  | stop running =>
      refine ⟨createdNext, Nat.le_refl _, ?_⟩
      intro before after split
      rcases earlier before after split with ⟨_, whole⟩ | ⟨stopping, _⟩
      · rw [whole]
        exact ⟨rfl, counts.created⟩
      · exact absurd (stopping.symm.trans running) (by decide)
  | schedule request =>
      refine ⟨createdNext, Nat.le_succ_of_le counts.known, ?_⟩
      intro before after split
      exact (earlier before after split).resolve_left fun ended => by cases ended.1
  | test _ _ | fetchNone _ _ _ _ | fetch _ _ _ _ _ | wake _ _ | call _ _ _ | join _ _ =>
      refine ⟨createdNext, counts.known, ?_⟩
      intro before after split
      exact (earlier before after split).resolve_left fun ended => by cases ended.1

theorem no_fetchers {scheduler : ProxyScheduler}
    (finished : ∀ worker ∈ scheduler.threads, worker = .finished) : scheduler.fetchers = 0 := by
  apply List.countP_eq_zero.mpr
  intro worker member
  rw [finished worker member]
  decide

theorem none_in_hand {scheduler : ProxyScheduler}
    (finished : ∀ worker ∈ scheduler.threads, worker = .finished) :
    scheduler.threads.flatMap Worker.inHand = [] := by
  apply List.flatMap_eq_nil_iff.mpr
  intro worker member
  rw [finished worker member]
  rfl

theorem rivals_pos {scheduler : ProxyScheduler} {method : RequestMethod}
    (queued : method ∈ scheduler.requestQueue) : 0 < scheduler.rivals method := by
  apply List.countP_pos_iff.mpr
  refine ⟨method, queued, ?_⟩
  simp [RequestMethod.less]

structure Invariant (history : List Label) (scheduler : ProxyScheduler) : Prop where
  accounted : scheduler.Accounted
  covered : scheduler.Covered
  ended : scheduler.Ended
  counts : scheduler.Counts history

theorem start_invariant (threadCount : Nat) : (start threadCount).Invariant [] := by
  constructor
  · intro pointer
    simp [occurrences, start, Worker.inHand, List.flatMap_replicate]
  · intro stopping
    cases stopping
  · intro joined
    cases joined
  · refine ⟨rfl, Nat.le_refl _, ?_⟩
    intro before after split
    simp at split

theorem invariant_kept {history : List Label} {scheduler next : ProxyScheduler} {label : Label}
    (holds : scheduler.Invariant history) (taken : Where Step EarlyTaken scheduler label next) :
    next.Invariant (history ++ [label]) := by
  have step := step_taken taken.1
  constructor
  · exact accounted_kept step holds.accounted
  · exact covered_kept step taken.2 holds.counts.known holds.covered
  · exact ended_kept step holds.ended
  · exact counts_kept step holds.counts

/-- The requests are numbered in the order of the calls of `schedule`. -/
theorem stop_loses_no_request (threadCount : Nat) {before after : List Label} {last : ProxyScheduler}
    (run : Run (Where Step EarlyTaken) (start threadCount) (before ++ .stop :: after) last)
    (returned : last.joined = true) (pointer : Nat) (early : pointer < before.countP Label.isSchedule) :
    last.called.count pointer = 1 := by
  have invariant := run.invariant (fun history state => state.Invariant history)
    (start_invariant threadCount) (fun _ _ _ _ => invariant_kept)
  rcases invariant with ⟨accounted, covered, ended, counts⟩
  rcases ended returned with ⟨stopping, finished⟩
  rcases counts.beforeStop before after rfl with ⟨_, created⟩
  rw [← created] at early
  have unqueued : (last.requestQueue.map (·.pointer)).count pointer = 0 := by
    apply List.count_eq_zero.mpr
    intro member
    rcases List.mem_map.mp member with ⟨method, queued, same⟩
    have enough := covered stopping method queued (same.symm ▸ early)
    have some := rivals_pos queued
    rw [no_fetchers finished] at enough
    omega
  have places := accounted pointer
  rw [occurrences, unqueued, none_in_hand finished, List.count_nil, Nat.zero_add,
    if_pos (Nat.lt_of_lt_of_le early counts.known)] at places
  exact places

theorem stop_loses_no_request_waiting :
    ∃ last : ProxyScheduler, last.joined = true ∧ last.called.count 0 = 1 := by
  have executes : (execute (guarded advance EarlyTaken) (start 1)
      [.test 0, .fetch 0 0, .schedule .initial, .stop, .wake 0, .fetch 0 0, .call 0, .test 0, .join]).map
        (·.joined) = some true := by
    decide +kernel
  rcases Run.of_guarded Step EarlyTaken (fun _ _ _ taken => taken) executes with ⟨last, run, joined⟩
  have split : Run (Where Step EarlyTaken) (start 1)
      ([.test 0, .fetch 0 0, .schedule .initial] ++
        .stop :: [.wake 0, .fetch 0 0, .call 0, .test 0, .join]) last := run
  exact ⟨last, joined, stop_loses_no_request 1 split joined 0 (by decide)⟩

/-- A second request is queued while the only worker carries out the first one. The worker
finds the flag set when it comes back to the loop. -/
theorem stop_loses_queued_request :
    ¬∀ (threadCount : Nat) (before after : List Label) (last : ProxyScheduler), 1 ≤ threadCount →
      Run Step (start threadCount) (before ++ .stop :: after) last → last.joined = true →
      ∀ pointer < before.countP Label.isSchedule, last.called.count pointer = 1 := by
  intro claim
  have executes : (execute advance (start 1)
      [.test 0, .schedule .initial, .fetch 0 0, .schedule .initial, .stop, .call 0, .test 0, .join]).map
        (fun last => (last.joined, last.called.count 1)) = some (true, 0) := by
    decide +kernel
  rcases Run.of_observed Step (fun _ _ _ taken => taken) executes with ⟨last, run, observed⟩
  have joined : last.joined = true := congrArg Prod.fst observed
  have never : last.called.count 1 = 0 := congrArg Prod.snd observed
  have once := claim 1 [.test 0, .schedule .initial, .fetch 0 0, .schedule .initial]
    [.call 0, .test 0, .join] last (Nat.le_refl 1) run joined 1 (by decide)
  omega

end ProxyScheduler

end Sne.Database
