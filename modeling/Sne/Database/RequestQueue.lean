import Mathlib.Data.List.Nodup
import Sne.Library.BinaryHeap
import Sne.Srpc.RpcRoundTrip
import Sne.Database.ProxyScheduler

/-!
# The order of the requests

`ProxyScheduler.cpp` with one worker, and its queue as it lies in the container of
`std::priority_queue`. `RequestMethod::less` compares the priorities only, so that the
heap orders the priorities and leaves requests of the same priority where they come to be.
-/

namespace Sne.Database.RequestQueues

open Sne.Srpc Sne.Library.BinaryHeap Sne.Library.Orders Sne.Library.Runs

set_option autoImplicit false

/-- The last two fields are observations: the number of requests created so far, and the
requests that the worker has fetched, the first one first. -/
structure Scheduler where
  requestQueue : List RequestMethod := []
  requestId : RequestId := 0
  queuedCount : UInt64 := 0
  processedCount : UInt64 := 0
  created : Nat := 0
  fetched : List RequestMethod := []
  deriving DecidableEq, Repr

inductive Label where
  | schedule (request : ModifyRequest)
  | fetch
  deriving DecidableEq, Repr

def Label.isSchedule : Label → Bool
  | schedule _ => true
  | fetch => false

def Label.isFetch : Label → Bool
  | schedule _ => false
  | fetch => true

namespace Scheduler

/-- `pointer` is the object: the later it was created, the greater. -/
def method (request : ModifyRequest) (scheduler : Scheduler) : RequestMethod :=
  { id := scheduler.requestId + 1, priority := request.priority, request, pointer := scheduler.created }

def schedule (request : ModifyRequest) (scheduler : Scheduler) : Scheduler :=
  { scheduler with
    requestId := scheduler.requestId + 1
    requestQueue := pushHeap RequestMethod.less (scheduler.method request) scheduler.requestQueue
    queuedCount := scheduler.queuedCount + 1
    created := scheduler.created + 1 }

/-- The worker waits while the queue is empty. -/
def fetchRequest (scheduler : Scheduler) : Option (RequestMethod × Scheduler) :=
  (popHeap RequestMethod.less scheduler.requestQueue).map fun (requestMethod, requestQueue) =>
    (requestMethod, { scheduler with
      requestQueue
      processedCount := scheduler.processedCount + 1
      fetched := scheduler.fetched ++ [requestMethod] })

def advance (scheduler : Scheduler) : Label → Option Scheduler
  | .schedule request => some (scheduler.schedule request)
  | .fetch => scheduler.fetchRequest.map Prod.snd

end Scheduler

def Step (scheduler : Scheduler) (label : Label) (next : Scheduler) : Prop :=
  scheduler.advance label = some next

/-- Of two requests with equal priority the one that was scheduled first is fetched first. -/
def InOrder (scheduler : Scheduler) : Prop :=
  ∀ before later after, scheduler.fetched = before ++ later :: after →
    ∀ earlier ∈ scheduler.fetched ++ scheduler.requestQueue, earlier.priority = later.priority →
      earlier.pointer < later.pointer → earlier ∈ before

/-- The fetched request is the oldest of its priority. -/
def OldestInFront (scheduler : Scheduler) (label : Label) : Prop :=
  label = .fetch → ∀ front, scheduler.requestQueue[0]? = some front →
    ∀ other ∈ scheduler.requestQueue, other.priority = front.priority → front.pointer ≤ other.pointer

/-- No request stands above an older one of the same priority. -/
def AgeOrdered (requestQueue : List RequestMethod) : Prop :=
  ∀ place above below, 0 < place → requestQueue[parent place]? = some above →
    requestQueue[place]? = some below → above.priority = below.priority → above.pointer ≤ below.pointer

/-- A fetch leaves no request above an older one of the same priority. -/
def KeepsAge (scheduler : Scheduler) (label : Label) : Prop :=
  label = .fetch → ∀ requestMethod next, scheduler.fetchRequest = some (requestMethod, next) →
    AgeOrdered next.requestQueue

def lessOrLater (left right : RequestMethod) : Bool :=
  left.less right || (!right.less left && decide (right.pointer < left.pointer))

section Orders

theorem less_iff {left right : RequestMethod} :
    left.less right = true ↔ left.priority.toByte.toNat < right.priority.toByte.toNat := by
  rw [RequestMethod.less, decide_eq_true_eq, UInt8.lt_iff_toNat_lt]

theorem not_less_iff {left right : RequestMethod} :
    left.less right = false ↔ right.priority.toByte.toNat ≤ left.priority.toByte.toNat := by
  rw [← Bool.not_eq_true, less_iff, Nat.not_lt]

theorem not_less_or_later_iff {left right : RequestMethod} :
    lessOrLater left right = false ↔
      right.priority.toByte.toNat ≤ left.priority.toByte.toNat ∧
        (left.priority.toByte.toNat ≤ right.priority.toByte.toNat → left.pointer ≤ right.pointer) := by
  rw [lessOrLater, Bool.or_eq_false_iff, not_less_iff, Bool.and_eq_false_iff, Bool.not_eq_false',
    less_iff, decide_eq_false_iff_not]
  omega

theorem less_weak_order : WeakOrder RequestMethod.less where
  asymm left right isLess := by
    rw [less_iff] at isLess
    rw [not_less_iff]
    omega
  trans first second third before after := by
    rw [not_less_iff] at before after ⊢
    omega

theorem less_or_later_weak_order : WeakOrder lessOrLater where
  asymm left right isLess := by
    rw [not_less_or_later_iff]
    have notBack : ¬(right.priority.toByte.toNat ≤ left.priority.toByte.toNat ∧
        (left.priority.toByte.toNat ≤ right.priority.toByte.toNat → left.pointer ≤ right.pointer)) := by
      rw [← not_less_or_later_iff, isLess]
      exact Bool.false_ne_true ∘ Eq.symm
    omega
  trans first second third before after := by
    rw [not_less_or_later_iff] at before after ⊢
    omega

theorem same_priority_iff {left right : RequestPriority} :
    left = right ↔ left.toByte.toNat = right.toByte.toNat := by
  constructor
  · intro same
    rw [same]
  · intro same
    rw [← RequestPriority.of_byte_to_byte left, UInt8.toNat_inj.mp same, RequestPriority.of_byte_to_byte]

/-- In a heap of priorities, nothing is above an older request of the same priority exactly if
it is also a heap for the finer comparison. -/
theorem age_ordered_iff {requestQueue : List RequestMethod}
    (isHeap : IsHeap RequestMethod.less requestQueue) :
    AgeOrdered requestQueue ↔ IsHeap lessOrLater requestQueue := by
  constructor
  · intro ordered place positive
    have priorities := isHeap place positive
    have aged := ordered place
    unfold lessAt at priorities ⊢
    cases aboveFound : requestQueue[parent place]? with
    | none => rfl
    | some above =>
        cases belowFound : requestQueue[place]? with
        | none => rfl
        | some below =>
            simp only [aboveFound, belowFound] at priorities
            rw [not_less_iff] at priorities
            simp only [not_less_or_later_iff]
            refine ⟨priorities, ?_⟩
            intro least
            exact aged above below positive aboveFound belowFound
              (same_priority_iff.mpr (Nat.le_antisymm least priorities))
  · intro finer place above below positive aboveFound belowFound same
    have aged := finer place positive
    simp only [lessAt, aboveFound, belowFound, not_less_or_later_iff] at aged
    exact aged.2 (Nat.le_of_eq (same_priority_iff.mp same))

end Orders

section Steps

variable {scheduler next : Scheduler} {requestMethod : RequestMethod}

/-- A fetch takes the front of the queue. -/
theorem fetch_takes (fetches : scheduler.fetchRequest = some (requestMethod, next)) :
    ∃ rest, popHeap RequestMethod.less scheduler.requestQueue = some (requestMethod, rest) ∧
      next = { scheduler with
        requestQueue := rest
        processedCount := scheduler.processedCount + 1
        fetched := scheduler.fetched ++ [requestMethod] } := by
  rcases Option.map_eq_some_iff.mp fetches with ⟨taken, popped, same⟩
  cases same
  exact ⟨taken.2, popped, rfl⟩

inductive Taken (scheduler : Scheduler) : Label → Scheduler → Prop where
  | schedule (request : ModifyRequest) : Taken scheduler (.schedule request) (scheduler.schedule request)
  | fetch (requestMethod : RequestMethod) (rest : List RequestMethod) :
      popHeap RequestMethod.less scheduler.requestQueue = some (requestMethod, rest) →
      Taken scheduler .fetch { scheduler with
        requestQueue := rest
        processedCount := scheduler.processedCount + 1
        fetched := scheduler.fetched ++ [requestMethod] }

theorem step_taken {label : Label} (step : Step scheduler label next) : Taken scheduler label next := by
  cases label with
  | schedule request =>
      cases step
      exact .schedule request
  | fetch =>
      rcases Option.map_eq_some_iff.mp step with ⟨taken, fetches, rfl⟩
      rcases fetch_takes fetches with ⟨rest, popped, same⟩
      rw [same]
      exact .fetch taken.1 rest popped

def Scheduler.requests (scheduler : Scheduler) : List RequestMethod :=
  scheduler.fetched ++ scheduler.requestQueue

theorem schedule_requests (request : ModifyRequest) (scheduler : Scheduler) :
    (scheduler.schedule request).requests.Perm (scheduler.method request :: scheduler.requests) :=
  ((push_heap_perm _ _).append_left scheduler.fetched).trans List.perm_middle

theorem fetch_requests {rest : List RequestMethod}
    (popped : popHeap RequestMethod.less scheduler.requestQueue = some (requestMethod, rest)) :
    (scheduler.fetched ++ [requestMethod] ++ rest).Perm scheduler.requests := by
  rw [List.append_assoc]
  exact (pop_heap_perm popped).1.symm.append_left scheduler.fetched

end Steps

structure Kept (scheduler : Scheduler) : Prop where
  isHeap : IsHeap RequestMethod.less scheduler.requestQueue
  distinct : scheduler.requests.Nodup
  earlier : ∀ requestMethod ∈ scheduler.requests, requestMethod.pointer < scheduler.created
  counted : scheduler.created = scheduler.fetched.length + scheduler.requestQueue.length
  queued : scheduler.queuedCount = UInt64.ofNat scheduler.created
  processed : scheduler.processedCount = UInt64.ofNat scheduler.fetched.length

section Runs

variable {scheduler next : Scheduler} {label : Label}

theorem initially_kept : Kept {} where
  isHeap := empty_heap RequestMethod.less
  distinct := List.nodup_nil
  earlier _ member := absurd member List.not_mem_nil
  counted := rfl
  queued := rfl
  processed := rfl

theorem Kept.schedule (kept : Kept scheduler) (request : ModifyRequest) :
    Kept (scheduler.schedule request) := by
  have same := schedule_requests request scheduler
  constructor
  · exact kept.isHeap.push less_weak_order _
  · rw [same.nodup_iff, List.nodup_cons]
    refine ⟨?_, kept.distinct⟩
    intro member
    exact Nat.lt_irrefl _ (kept.earlier _ member)
  · intro requestMethod member
    rcases List.mem_cons.mp (same.mem_iff.mp member) with rfl | before
    · exact Nat.lt_succ_self _
    · exact Nat.lt_succ_of_lt (kept.earlier requestMethod before)
  · have length : (scheduler.schedule request).requestQueue.length = scheduler.requestQueue.length + 1 :=
      (push_heap_perm _ _).length_eq
    have counted := kept.counted
    rw [length]
    simp only [Scheduler.schedule]
    omega
  · simp only [Scheduler.schedule, kept.queued, UInt64.ofNat_add]
    rfl
  · exact kept.processed

theorem Kept.fetch (kept : Kept scheduler) {requestMethod : RequestMethod} {rest : List RequestMethod}
    (popped : popHeap RequestMethod.less scheduler.requestQueue = some (requestMethod, rest)) :
    Kept { scheduler with
      requestQueue := rest
      processedCount := scheduler.processedCount + 1
      fetched := scheduler.fetched ++ [requestMethod] } := by
  have same := fetch_requests popped
  constructor
  · exact kept.isHeap.pop less_weak_order popped
  · exact same.nodup_iff.mpr kept.distinct
  · intro other member
    exact kept.earlier other (same.mem_iff.mp member)
  · have length := (pop_heap_perm popped).1.length_eq
    have counted := kept.counted
    rw [List.length_cons] at length
    simp only [List.length_append, List.length_singleton]
    omega
  · exact kept.queued
  · simp only [kept.processed, List.length_append, List.length_singleton, UInt64.ofNat_add]
    rfl

theorem Kept.step (kept : Kept scheduler) (step : Step scheduler label next) : Kept next := by
  cases step_taken step with
  | schedule request => exact kept.schedule request
  | fetch requestMethod rest popped => exact kept.fetch popped

theorem run_kept {labels : List Label} (run : Run Step {} labels scheduler) : Kept scheduler := by
  apply run.invariant (fun _ state => Kept state) initially_kept
  intro _ state label next kept step
  exact kept.step step

theorem run_counts {labels : List Label} (run : Run Step {} labels scheduler) :
    labels.countP Label.isSchedule = scheduler.created ∧
      labels.countP Label.isFetch = scheduler.fetched.length := by
  apply run.invariant (fun history state => history.countP Label.isSchedule = state.created ∧
    history.countP Label.isFetch = state.fetched.length) ⟨rfl, rfl⟩
  rintro history state label next ⟨created, fetched⟩ step
  rw [List.countP_append, List.countP_append, created, fetched]
  cases step_taken step with
  | schedule request => exact ⟨rfl, rfl⟩
  | fetch requestMethod rest popped =>
      refine ⟨rfl, ?_⟩
      rw [List.length_append]
      rfl

theorem schedule_in_order (kept : Kept scheduler) (request : ModifyRequest) :
    InOrder (scheduler.schedule request) ↔ InOrder scheduler := by
  have same := schedule_requests request scheduler
  constructor
  · intro ordered before later after split earlier member
    exact ordered before later after split earlier (same.mem_iff.mpr (List.mem_cons_of_mem _ member))
  · intro ordered before later after split earlier member priority older
    rcases List.mem_cons.mp (same.mem_iff.mp member) with rfl | known
    · have fetched : later ∈ scheduler.requests := by
        apply List.mem_append_left
        change scheduler.fetched = _ at split
        rw [split]
        exact List.mem_append_right before List.mem_cons_self
      exact absurd older (Nat.not_lt.mpr (Nat.le_of_lt (kept.earlier later fetched)))
    · exact ordered before later after split earlier known priority older

/-- A fetch keeps to the order exactly if it finds the oldest request of its priority. -/
theorem fetch_in_order (kept : Kept scheduler) {requestMethod : RequestMethod}
    {rest : List RequestMethod}
    (popped : popHeap RequestMethod.less scheduler.requestQueue = some (requestMethod, rest)) :
    InOrder { scheduler with
      requestQueue := rest
      processedCount := scheduler.processedCount + 1
      fetched := scheduler.fetched ++ [requestMethod] } ↔
        InOrder scheduler ∧ OldestInFront scheduler .fetch := by
  have same := fetch_requests popped
  have isFront := (pop_heap_perm popped).2
  constructor
  · intro ordered
    constructor
    · intro before later after split earlier member
      apply ordered before later (after ++ [requestMethod])
      · rw [split, List.append_assoc, List.cons_append]
      · exact same.mem_iff.mpr member
    · intro _ first found other waiting priority
      cases isFront.symm.trans found
      by_contra notOldest
      have fetched := ordered scheduler.fetched requestMethod [] rfl other
        (same.mem_iff.mpr (List.mem_append_right _ waiting)) priority (Nat.not_le.mp notOldest)
      exact List.disjoint_of_nodup_append kept.distinct fetched waiting
  · rintro ⟨ordered, oldest⟩ before later after split earlier member priority older
    have known := same.mem_iff.mp member
    rcases List.eq_nil_or_concat after with rfl | ⟨others, last, rfl⟩
    · rcases List.append_inj' split rfl with ⟨rfl, sameLast⟩
      cases sameLast
      rcases List.mem_append.mp known with fetched | waiting
      · exact fetched
      · exact absurd older (Nat.not_lt.mpr (oldest rfl requestMethod isFront earlier waiting priority))
    · rw [List.concat_eq_append, ← List.cons_append, ← List.append_assoc] at split
      rcases List.append_inj' split rfl with ⟨sameFetched, _⟩
      exact ordered before later others sameFetched earlier known priority older

theorem oldest_on_schedule (request : ModifyRequest) : OldestInFront scheduler (.schedule request) := by
  intro impossible
  cases impossible

theorem step_in_order (kept : Kept scheduler) (step : Step scheduler label next) :
    InOrder next ↔ InOrder scheduler ∧ OldestInFront scheduler label := by
  cases step_taken step with
  | schedule request => rw [schedule_in_order kept, and_iff_left (oldest_on_schedule request)]
  | fetch requestMethod rest popped => exact fetch_in_order kept popped

theorem run_in_order_iff {labels : List Label} (run : Run Step {} labels scheduler) :
    InOrder scheduler ↔ Run (Where Step OldestInFront) {} labels scheduler := by
  apply run.safe_iff Kept InOrder OldestInFront initially_kept
  · intro before later after split
    rw [List.nil_eq_append_iff] at split
    cases split.2
  · intro state label next kept step
    exact kept.step step
  · intro state label next kept step
    exact step_in_order kept step

theorem age_ordered_oldest (kept : Kept scheduler) (aged : AgeOrdered scheduler.requestQueue) :
    OldestInFront scheduler label := by
  intro _ front isFront other member priority
  have finer := (age_ordered_iff kept.isHeap).mp aged
  have notLater := finer.top_greatest less_or_later_weak_order isFront member
  exact (not_less_or_later_iff.mp notLater).2 (Nat.le_of_eq (same_priority_iff.mp priority.symm))

/-- A new request is younger than all others, so that the finer comparison moves it the same way. -/
theorem schedule_keeps_age (kept : Kept scheduler) (aged : AgeOrdered scheduler.requestQueue)
    (request : ModifyRequest) : AgeOrdered (scheduler.schedule request).requestQueue := by
  have finer := (age_ordered_iff kept.isHeap).mp aged
  rw [age_ordered_iff (kept.schedule request).isHeap]
  have same : (scheduler.schedule request).requestQueue =
      pushHeap lessOrLater (scheduler.method request) scheduler.requestQueue := by
    apply push_heap_congr
    intro other member
    have notYounger : ¬(scheduler.method request).pointer < other.pointer := by
      rcases List.mem_append.mp member with queued | new
      · exact Nat.not_lt.mpr (Nat.le_of_lt (kept.earlier other (List.mem_append_right _ queued)))
      · rw [List.mem_singleton.mp new]
        exact Nat.lt_irrefl _
    rw [lessOrLater, decide_eq_false notYounger, Bool.and_false, Bool.or_false]
  rw [same]
  exact finer.push less_or_later_weak_order _

theorem step_keeps_age (kept : Kept scheduler) (aged : AgeOrdered scheduler.requestQueue)
    (step : Step scheduler label next) (keeps : KeepsAge scheduler label) :
    AgeOrdered next.requestQueue := by
  cases step_taken step with
  | schedule request => exact schedule_keeps_age kept aged request
  | fetch requestMethod rest popped =>
      apply keeps rfl requestMethod
      exact congrArg (Option.map _) popped

/-- Where no fetch leaves a request above an older one, every fetch finds the oldest. -/
theorem age_run_oldest {labels : List Label} (run : Run (Where Step KeepsAge) {} labels scheduler) :
    Run (Where Step OldestInFront) {} labels scheduler ∧ Kept scheduler ∧
      AgeOrdered scheduler.requestQueue := by
  induction run with
  | start =>
      refine ⟨.start _, initially_kept, ?_⟩
      intro place above below _ found
      cases found
  | next _ taken induction =>
      rcases induction with ⟨earlier, kept, aged⟩
      exact ⟨.next earlier ⟨taken.1, age_ordered_oldest kept aged⟩, kept.step taken.1,
        step_keeps_age kept aged taken.1 taken.2⟩

end Runs

/-- A queue of at most two requests is in order of age after a fetch. -/
theorem short_queue_keeps_age {scheduler : Scheduler} (label : Label)
    (short : scheduler.requestQueue.length ≤ 2) : KeepsAge scheduler label := by
  intro _ requestMethod next fetches place above below positive _ found
  rcases fetch_takes fetches with ⟨rest, popped, rfl⟩
  have length := (pop_heap_perm popped).1.length_eq
  rw [List.length_cons] at length
  have inside := (List.getElem?_eq_some_iff.mp found).1
  change place < rest.length at inside
  omega

/-- The scheduler with any number of workers and any queue, when its one worker is about to
test the flag. -/
structure Refines (scheduler : Scheduler) (any : ProxyScheduler) : Prop where
  requestQueue : any.requestQueue.Perm scheduler.requestQueue
  requestId : any.requestId = scheduler.requestId
  stop : any.stop = false
  queuedCount : any.queuedCount = scheduler.queuedCount
  processedCount : any.processedCount = scheduler.processedCount
  threads : any.threads = [.testing]
  created : any.created = scheduler.created
  called : any.called = scheduler.fetched.map RequestMethod.pointer

section Refinement

variable {scheduler next : Scheduler} {any : ProxyScheduler}

theorem schedule_refines (refines : Refines scheduler any) (request : ModifyRequest) :
    Refines (scheduler.schedule request) (any.schedule request) := by
  constructor
  · simp only [ProxyScheduler.schedule, Scheduler.schedule, refines.requestId, refines.created]
    apply (List.perm_append_singleton _ _).trans
    exact (refines.requestQueue.cons _).trans (push_heap_perm _ _).symm
  · exact congrArg (fun id => id + 1) refines.requestId
  · exact refines.stop
  · exact congrArg (fun count => count + 1) refines.queuedCount
  · exact refines.processedCount
  · exact refines.threads
  · exact congrArg (fun count => count + 1) refines.created
  · exact refines.called

/-- The front of the heap is one of the requests that any queue may have on top. -/
theorem front_on_top (kept : Kept scheduler) (refines : Refines scheduler any)
    {requestMethod : RequestMethod} {rest : List RequestMethod}
    (popped : popHeap RequestMethod.less scheduler.requestQueue = some (requestMethod, rest)) :
    ∃ index, any.top index = some requestMethod ∧ (any.requestQueue.eraseIdx index).Perm rest := by
  rcases pop_heap_perm popped with ⟨taken, isFront⟩
  have same := refines.requestQueue.trans taken
  rcases List.getElem?_of_mem (same.mem_iff.mpr List.mem_cons_self) with ⟨index, found⟩
  refine ⟨index, ?_, ?_⟩
  · rw [ProxyScheduler.top, found, Option.filter_some, if_pos]
    apply List.all_eq_true.mpr
    intro other member
    rw [kept.isHeap.top_greatest less_weak_order isFront (refines.requestQueue.mem_iff.mp member)]
    rfl
  · rcases split_at found with ⟨earlier, later, whole, erased, _⟩
    rw [erased]
    rw [whole] at same
    exact (List.perm_middle.symm.trans same).cons_inv

theorem fetch_refines (kept : Kept scheduler) (refines : Refines scheduler any)
    {requestMethod : RequestMethod} {rest : List RequestMethod}
    (popped : popHeap RequestMethod.less scheduler.requestQueue = some (requestMethod, rest)) :
    ∃ index last, Run ProxyScheduler.Step any [.test 0, .fetch 0 index, .call 0] last ∧
      Refines { scheduler with
        requestQueue := rest
        processedCount := scheduler.processedCount + 1
        fetched := scheduler.fetched ++ [requestMethod] } last := by
  rcases front_on_top kept refines popped with ⟨index, onTop, left⟩
  have notEmpty : ¬any.requestQueue.isEmpty = true := by
    intro empty
    rw [ProxyScheduler.top, List.isEmpty_iff.mp empty] at onTop
    cases onTop
  have tested : ProxyScheduler.Step any (.test 0) { any with threads := [.fetching] } := by
    simp only [ProxyScheduler.Step, ProxyScheduler.advance, ProxyScheduler.setWorker, refines.threads,
      refines.stop]
    rfl
  have fetched : ProxyScheduler.Step { any with threads := [.fetching] } (.fetch 0 index)
      { any with
        threads := [.calling requestMethod]
        requestQueue := any.requestQueue.eraseIdx index
        processedCount := any.processedCount + 1 } := by
    change (if any.requestQueue.isEmpty then _ else (any.top index).map _) = _
    rw [if_neg notEmpty, onTop]
    rfl
  refine ⟨index, _, .cons tested (.cons fetched (.cons rfl (.start _))), ?_⟩
  constructor
  · exact left
  · exact refines.requestId
  · exact refines.stop
  · exact refines.queuedCount
  · exact congrArg (fun count => count + 1) refines.processedCount
  · rfl
  · exact refines.created
  · rw [List.map_append, ← refines.called]
    rfl

/-- What the one worker does is a run of the scheduler, whose queue chooses as the heap does. -/
theorem run_refines {labels : List Label} (run : Run Step {} labels scheduler) :
    ∃ anyLabels any, Run ProxyScheduler.Step (.start 1) anyLabels any ∧ Refines scheduler any := by
  have both : Kept scheduler ∧
      ∃ anyLabels any, Run ProxyScheduler.Step (.start 1) anyLabels any ∧ Refines scheduler any := by
    induction run with
    | start =>
        refine ⟨initially_kept, [], .start 1, .start _, ?_⟩
        exact ⟨List.Perm.nil, rfl, rfl, rfl, rfl, rfl, rfl, rfl⟩
    | next _ step induction =>
        rcases induction with ⟨kept, earlier, before, anyRun, refines⟩
        refine ⟨kept.step step, ?_⟩
        cases step_taken step with
        | schedule request =>
            have taken : ProxyScheduler.Step before (.schedule request) (before.schedule request) := rfl
            exact ⟨_, _, .next anyRun taken, schedule_refines refines request⟩
        | fetch requestMethod rest popped =>
            rcases fetch_refines kept refines popped with ⟨index, last, taken, after⟩
            exact ⟨_, last, anyRun.append taken, after⟩
  exact both.2

end Refinement

/-- In every run: a fetched request has the greatest priority of the queue; the requests that were
scheduled are those that were fetched and the queue; and requests of equal priority are fetched
in the order of their scheduling exactly if every fetch finds the oldest of its priority in front.
That is so if no fetch leaves a request above an older one of the same priority. -/
theorem scheduler_respects_priority {labels : List Label} {scheduler : Scheduler}
    (run : Run Step {} labels scheduler) :
    (∀ requestMethod next, scheduler.fetchRequest = some (requestMethod, next) →
      ∀ other ∈ scheduler.requestQueue, other.priority.toByte ≤ requestMethod.priority.toByte) ∧
    (labels.countP Label.isSchedule = labels.countP Label.isFetch + scheduler.requestQueue.length ∧
      scheduler.queuedCount = scheduler.processedCount + UInt64.ofNat scheduler.requestQueue.length) ∧
    (InOrder scheduler ↔ Run (Where Step OldestInFront) {} labels scheduler) ∧
    (Run (Where Step KeepsAge) {} labels scheduler → InOrder scheduler) := by
  have kept := run_kept run
  rcases run_counts run with ⟨created, fetched⟩
  refine ⟨?_, ⟨?_, ?_⟩, run_in_order_iff run, ?_⟩
  · intro requestMethod next fetches other waiting
    rcases fetch_takes fetches with ⟨rest, popped, _⟩
    have notLess := kept.isHeap.top_greatest less_weak_order (pop_heap_perm popped).2 waiting
    rw [UInt8.le_iff_toNat_le]
    exact not_less_iff.mp notLess
  · rw [created, fetched]
    exact kept.counted
  · rw [kept.queued, kept.processed, kept.counted, UInt64.ofNat_add]
  · intro aged
    exact (run_in_order_iff run).mpr (age_run_oldest aged).1

def requestOf (priority : RequestPriority) : ModifyRequest := { ModifyRequest.initial with priority }

theorem scheduler_respects_priority_pair : ∃ scheduler,
    Run Step {} [.schedule (requestOf .normal), .schedule (requestOf .normal), .fetch, .fetch] scheduler ∧
      scheduler.fetched.map RequestMethod.pointer = [0, 1] ∧ InOrder scheduler := by
  have keeps : Run (Where Step KeepsAge) {}
      [.schedule (requestOf .normal), .schedule (requestOf .normal), .fetch, .fetch] _ :=
    .cons ⟨rfl, short_queue_keeps_age _ (by decide)⟩ (.cons ⟨rfl, short_queue_keeps_age _ (by decide)⟩
      (.cons ⟨rfl, short_queue_keeps_age _ (by decide)⟩
        (.cons ⟨rfl, short_queue_keeps_age _ (by decide)⟩ (.start _))))
  exact ⟨_, keeps.unconditional, rfl, (scheduler_respects_priority keeps.unconditional).2.2.2 keeps⟩

/-- Four requests of the same priority. The third one, on the right, moves to the front when the
first one is fetched. -/
theorem equal_priority_out_of_order :
    ¬∀ (labels : List Label) (scheduler : Scheduler), Run Step {} labels scheduler →
      InOrder scheduler := by
  intro claim
  have run : Run Step {} [.schedule (requestOf .normal), .schedule (requestOf .normal),
      .schedule (requestOf .normal), .schedule (requestOf .normal), .fetch, .fetch, .fetch, .fetch] _ :=
    .cons rfl (.cons rfl (.cons rfl (.cons rfl (.cons rfl (.cons rfl (.cons rfl (.cons rfl
      (.start _))))))))
  have ordered := claim _ _ run [⟨1, .normal, requestOf .normal, 0⟩] ⟨3, .normal, requestOf .normal, 2⟩
    [⟨2, .normal, requestOf .normal, 1⟩, ⟨4, .normal, requestOf .normal, 3⟩] (by decide)
    ⟨2, .normal, requestOf .normal, 1⟩ (by decide) rfl (by decide)
  exact absurd ordered (by decide)

end Sne.Database.RequestQueues
