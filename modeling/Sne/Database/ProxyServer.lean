import Mathlib.Algebra.Order.BigOperators.Group.List
import Mathlib.Data.List.MinMax
import Mathlib.Data.List.Nodup
import Sne.Database.DatabasePool
import Sne.Database.ProxyScheduler
import Sne.Database.SqlServerProxyDatabase

/-!
# The database proxy at work

`RequestMethod.cpp` between the scheduler and the pool of connections. `call` has a `Guard`,
which acquires a connection when it is constructed and releases it when `call` returns. The
steps of the workers, of those who schedule requests and of the pings interleave freely. What
the database answers may be different each time. An exception that leaves `call` leaves the
worker's thread too, and the process ends.
-/

namespace Sne.Database

open Sne.Srpc Sne.Library.Runs

set_option autoImplicit false

/-- The `Guard` of a worker inside `ModifyRequestMethod::call`, and what the call of the
database has returned. -/
structure Guard where
  worker : Nat
  method : RequestMethod
  database : Option Nat
  outcome : Option CallOutcome
  deriving DecidableEq, Repr

def Guard.holding (guard : Guard) : Option Pooling.Holding :=
  guard.database.map fun database => { client := guard.worker, database }

/-- A request that was handed to a connection, whatever came of it. -/
structure Execution where
  pointer : Nat
  database : Nat
  outcome : CallOutcome
  deriving DecidableEq, Repr

/-- `executions` is an observation. -/
structure ProxyServer where
  scheduler : ProxyScheduler
  pool : Pooling.DatabasePool
  guards : List Guard
  executions : List Execution
  hasProcessEnded : Bool := false
  deriving DecidableEq, Repr

namespace ProxyServer

/-- Both managers are initialized before the first request. -/
def start (threadCount : Nat) (pool : Pooling.DatabasePool) : ProxyServer :=
  { scheduler := .start threadCount, pool, guards := [], executions := [] }

def guardOf (worker : Nat) (server : ProxyServer) : Option Guard :=
  server.guards.find? fun guard => guard.worker == worker

def otherGuards (worker : Nat) (server : ProxyServer) : List Guard :=
  server.guards.filter fun guard => guard.worker != worker

/-- `DatabasePool::enumerateIdleDatabases`, with those that the task is run on. -/
def enumerateIdleDatabases (pool : Pooling.DatabasePool) : List Nat :=
  (pool.databases.filter Pooling.Item.isIdle).map Pooling.Item.database

/-- `release` is the end of `call`, with the destructor of the guard. -/
inductive Label where
  | scheduler (label : ProxyScheduler.Label)
  | acquire (worker : Nat)
  | execute (worker : Nat) (database : AdoDatabase)
  | release (worker : Nat)

def Label.ofScheduler : Label → Option ProxyScheduler.Label
  | scheduler label => some label
  | release worker => some (.call worker)
  | _ => none

def Label.isCall : ProxyScheduler.Label → Bool
  | .call _ => true
  | _ => false

/-- A null pointer has no step: what a call of it does is not known. -/
def act (server : ProxyServer) : Label → Option ProxyServer
  | .scheduler label =>
      if Label.isCall label then
        none
      else
        (server.scheduler.advance label).map fun scheduler => { server with scheduler }
  | .acquire worker =>
      match server.scheduler.threads[worker]?, server.guardOf worker with
      | some (.calling method), none =>
          (Pooling.acquire server.pool).map fun acquired =>
            { server with
              pool := acquired.2
              guards := { worker, method, database := acquired.1, outcome := none } :: server.guards }
      | _, _ => none
  | .execute worker database =>
      match server.guardOf worker with
      | some { method, database := some number, outcome := none, .. } =>
          let outcome := SqlServerProxyDatabase.call database method.request
          some { server with
            guards := { worker, method, database := some number, outcome := some outcome } ::
              server.otherGuards worker
            executions := server.executions ++ [{ pointer := method.pointer, database := number, outcome }]
            hasProcessEnded := outcome.isNone }
      | _ => none
  | .release worker =>
      match server.guardOf worker with
      | some { database := some number, outcome := some _, .. } =>
          (server.scheduler.advance (.call worker)).map fun scheduler =>
            { server with
              scheduler
              pool := (Pooling.release number server.pool).2
              guards := server.otherGuards worker }
      | _ => none

def advance (server : ProxyServer) (label : Label) : Option ProxyServer :=
  if server.hasProcessEnded then none else server.act label

def Step (server : ProxyServer) (label : Label) (next : ProxyServer) : Prop :=
  server.advance label = some next

def scheduledRequests (labels : List ProxyScheduler.Label) : List ModifyRequest :=
  labels.filterMap fun
    | .schedule request => some request
    | _ => none

inductive Taken (server : ProxyServer) : Label → ProxyServer → Prop where
  | scheduler (label : ProxyScheduler.Label) (scheduler : ProxyScheduler) :
      Label.isCall label = false → ProxyScheduler.Step server.scheduler label scheduler →
      Taken server (.scheduler label) { server with scheduler }
  | acquire (worker : Nat) (method : RequestMethod) (acquired : Option Nat × Pooling.DatabasePool) :
      server.scheduler.threads[worker]? = some (.calling method) → server.guardOf worker = none →
      Pooling.acquire server.pool = some acquired →
      Taken server (.acquire worker)
        { server with
          pool := acquired.2
          guards := { worker, method, database := acquired.1, outcome := none } :: server.guards }
  | execute (guard : Guard) (database : AdoDatabase) (number : Nat) :
      server.guardOf guard.worker = some guard → guard.database = some number → guard.outcome = none →
      Taken server (.execute guard.worker database)
        { server with
          guards := { guard with
            outcome := some (SqlServerProxyDatabase.call database guard.method.request) } ::
              server.otherGuards guard.worker
          executions := server.executions ++
            [{ pointer := guard.method.pointer
               database := number
               outcome := SqlServerProxyDatabase.call database guard.method.request }]
          hasProcessEnded := (SqlServerProxyDatabase.call database guard.method.request).isNone }
  | release (guard : Guard) (number : Nat) (outcome : CallOutcome) (scheduler : ProxyScheduler) :
      server.guardOf guard.worker = some guard → guard.database = some number →
      guard.outcome = some outcome →
      ProxyScheduler.Step server.scheduler (.call guard.worker) scheduler →
      Taken server (.release guard.worker)
        { server with
          scheduler
          pool := (Pooling.release number server.pool).2
          guards := server.otherGuards guard.worker }

theorem guard_of_worker {server : ProxyServer} {worker : Nat} {guard : Guard}
    (found : server.guardOf worker = some guard) : guard.worker = worker :=
  eq_of_beq (List.find?_eq_some_iff_append.mp found).1

theorem step_taken {server next : ProxyServer} {label : Label} (step : Step server label next) :
    Taken server label next := by
  unfold Step advance act at step
  split at step
  · cases step
  cases label with
  | scheduler label =>
      dsimp only at step
      split at step
      · cases step
      · rename_i other
        rcases Option.map_eq_some_iff.mp step with ⟨scheduler, advanced, same⟩
        rw [← same]
        exact .scheduler label scheduler (Bool.eq_false_iff.mpr other) advanced
  | acquire worker =>
      dsimp only at step
      split at step
      · rename_i method calling free
        rcases Option.map_eq_some_iff.mp step with ⟨acquired, returns, same⟩
        rw [← same]
        exact .acquire worker method acquired calling free returns
      · cases step
  | execute worker database =>
      dsimp only at step
      split at step
      · rename_i holder method number found
        cases guard_of_worker found
        cases step
        exact .execute ⟨holder, method, some number, none⟩ database number found rfl rfl
      · cases step
  | release worker =>
      dsimp only at step
      split at step
      · rename_i holder method number outcome found
        cases guard_of_worker found
        rcases Option.map_eq_some_iff.mp step with ⟨scheduler, advanced, same⟩
        rw [← same]
        exact .release ⟨holder, method, some number, some outcome⟩ number outcome scheduler found rfl rfl
          advanced
      · cases step

/-- The methods that are queued or in hand are those of the requests with their numbers. -/
structure Numbered (requests : List ModifyRequest) (scheduler : ProxyScheduler) : Prop where
  created : scheduler.created = requests.length
  queued : ∀ method ∈ scheduler.requestQueue, requests[method.pointer]? = some method.request
  inHand : ∀ method, .calling method ∈ scheduler.threads →
    requests[method.pointer]? = some method.request

theorem numbered_later {requests : List ModifyRequest} {number : Nat} {request : ModifyRequest}
    (numbered : requests[number]? = some request) (more : List ModifyRequest) :
    (requests ++ more)[number]? = some request := by
  rw [List.getElem?_append_left (List.getElem?_eq_some_iff.mp numbered).1]
  exact numbered

section Requests

variable {requests : List ModifyRequest} {scheduler next : ProxyScheduler} {label : ProxyScheduler.Label}

theorem Numbered.set_worker (numbered : Numbered requests scheduler) (worker : Nat) {new : Worker}
    (idle : ∀ method, new ≠ .calling method) : Numbered requests (scheduler.setWorker worker new) := by
  refine ⟨numbered.created, numbered.queued, ?_⟩
  intro method member
  rcases List.mem_or_eq_of_mem_set member with old | same
  · exact numbered.inHand method old
  · exact absurd same.symm (idle method)

theorem numbered_kept (taken : ProxyScheduler.Taken scheduler label next)
    (numbered : Numbered requests scheduler) :
    Numbered (requests ++ scheduledRequests [label]) next := by
  cases taken with
  | schedule request =>
      change Numbered (requests ++ [request]) _
      constructor
      · rw [List.length_append]
        exact congrArg (fun count => count + 1) numbered.created
      · intro method member
        rcases List.mem_append.mp member with old | new
        · exact numbered_later (numbered.queued method old) _
        · cases List.mem_singleton.mp new
          change (requests ++ [request])[scheduler.created]? = some request
          rw [numbered.created, List.getElem?_append_right (Nat.le_refl _), Nat.sub_self]
          rfl
      · intro method member
        exact numbered_later (numbered.inHand method member) _
  | test worker _ =>
      change Numbered (requests ++ []) _
      rw [List.append_nil]
      apply numbered.set_worker
      intro method
      cases scheduler.stop <;> exact nofun
  | fetchNone worker index _ _ =>
      change Numbered (requests ++ []) _
      rw [List.append_nil]
      apply numbered.set_worker
      intro method
      cases scheduler.stop <;> exact nofun
  | fetch worker index method _ top =>
      change Numbered (requests ++ []) _
      rw [List.append_nil]
      rcases ProxyScheduler.top_splits top with ⟨earlier, later, whole, _, _⟩
      have queued : method ∈ scheduler.requestQueue :=
        whole ▸ List.mem_append_right _ List.mem_cons_self
      refine ⟨numbered.created, ?_, ?_⟩
      · intro other member
        exact numbered.queued other (List.mem_of_mem_eraseIdx member)
      · intro other member
        rcases List.mem_or_eq_of_mem_set member with old | same
        · exact numbered.inHand other old
        · cases same
          exact numbered.queued method queued
  | wake worker _ =>
      change Numbered (requests ++ []) _
      rw [List.append_nil]
      exact numbered.set_worker worker (fun _ => nofun)
  | call worker method _ =>
      change Numbered (requests ++ []) _
      rw [List.append_nil]
      have idle : Numbered requests (scheduler.setWorker worker .testing) :=
        numbered.set_worker worker (fun _ => nofun)
      exact ⟨idle.created, idle.queued, idle.inHand⟩
  | stop _ =>
      change Numbered (requests ++ []) _
      rw [List.append_nil]
      exact ⟨numbered.created, numbered.queued, numbered.inHand⟩
  | join _ _ =>
      change Numbered (requests ++ []) _
      rw [List.append_nil]
      exact ⟨numbered.created, numbered.queued, numbered.inHand⟩

theorem calling_stays (taken : ProxyScheduler.Taken scheduler label next)
    (other : Label.isCall label = false) {worker : Nat} {method : RequestMethod}
    (calling : scheduler.threads[worker]? = some (.calling method)) :
    next.threads[worker]? = some (.calling method) := by
  have unchanged : ∀ {mover : Nat} {old : Worker} (new : Worker), scheduler.threads[mover]? = some old →
      (∀ other, old ≠ .calling other) →
      (scheduler.threads.set mover new)[worker]? = some (.calling method) := by
    intro mover old new found idle
    have apart : mover ≠ worker := by
      intro same
      cases same
      exact idle method (Option.some.inj (found.symm.trans calling))
    rw [List.getElem?_set_ne apart]
    exact calling
  cases taken with
  | schedule request => exact calling
  | test mover found => exact unchanged _ found (fun _ => nofun)
  | fetchNone mover index found _ => exact unchanged _ found (fun _ => nofun)
  | fetch mover index method found _ => exact unchanged _ found (fun _ => nofun)
  | wake mover found => exact unchanged _ found (fun _ => nofun)
  | call mover method found => cases other
  | stop _ => exact calling
  | join _ _ => exact calling

theorem called_stays (taken : ProxyScheduler.Taken scheduler label next)
    (other : Label.isCall label = false) : next.called = scheduler.called := by
  cases taken with
  | call _ _ _ => cases other
  | schedule _ | test _ _ | fetchNone _ _ _ _ | fetch _ _ _ _ _ | wake _ _ | stop _ | join _ _ => rfl

end Requests

section Guards

variable {server : ProxyServer} {guard : Guard}

/-- The guard of a worker is the only one. -/
theorem guard_first (distinct : (server.guards.map Guard.worker).Nodup)
    (found : server.guardOf guard.worker = some guard) :
    server.guards.Perm (guard :: server.otherGuards guard.worker) := by
  rcases List.find?_eq_some_iff_append.mp found with ⟨_, earlier, later, whole, before⟩
  have first : earlier.filter (fun other => other.worker != guard.worker) = earlier := by
    apply List.filter_eq_self.mpr
    intro other member
    exact before other member
  have second : later.filter (fun other => other.worker != guard.worker) = later := by
    apply List.filter_eq_self.mpr
    intro other member
    rw [whole, List.map_append, List.map_cons] at distinct
    have fresh := (List.nodup_cons.mp (List.nodup_append.mp distinct).2.1).1
    rw [bne_iff_ne]
    intro same
    exact fresh (same ▸ List.mem_map_of_mem member)
  have others : server.otherGuards guard.worker = earlier ++ later := by
    rw [otherGuards, whole, List.filter_append, List.filter_cons_of_neg (by simp), first, second]
  rw [others, whole]
  exact List.perm_middle

end Guards

def holdings (guards : List Guard) : List Pooling.Holding := guards.filterMap Guard.holding

def performed (guards : List Guard) : List Nat :=
  (guards.filter fun guard => guard.outcome.isSome).map fun guard => guard.method.pointer

/-- The guards stand inside the calls of the workers and hold what is in use, and every execution
is that of a request in hand or of one whose call has returned. -/
structure Kept (requests : List ModifyRequest) (server : ProxyServer) : Prop where
  accounted : server.scheduler.Accounted
  numbered : Numbered requests server.scheduler
  manned : ∀ guard ∈ server.guards,
    server.scheduler.threads[guard.worker]? = some (.calling guard.method)
  distinct : (server.guards.map Guard.worker).Nodup
  pooled : Pooling.Kept { pool := server.pool, holdings := holdings server.guards }
  connected : ∀ guard ∈ server.guards, ∃ number, guard.database = some number
  executed : (server.executions.map Execution.pointer).Perm
    (server.scheduler.called ++ performed server.guards)
  answered : ∀ execution ∈ server.executions, ∃ request database,
    requests[execution.pointer]? = some request ∧
      execution.outcome = SqlServerProxyDatabase.call database request

theorem pooled_of_perm {pool : Pooling.DatabasePool} {before after : List Pooling.Holding}
    (kept : Pooling.Kept { pool, holdings := before }) (same : after.Perm before) :
    Pooling.Kept { pool, holdings := after } := by
  refine ⟨kept.counted, kept.distinct, kept.bounded, ?_⟩
  exact (same.map Pooling.Holding.database).trans kept.holds

section Steps

variable {requests : List ModifyRequest} {server : ProxyServer}

theorem kept_start (threadCount : Nat) {opens : Nat → Bool} {connectionCount : UInt64}
    {pool : Pooling.DatabasePool}
    (opened : Pooling.openPool opens connectionCount Pooling.constructed = (true, pool)) :
    Kept [] (start threadCount pool) := by
  constructor
  · exact (ProxyScheduler.start_invariant threadCount).accounted
  · refine ⟨rfl, fun _ => nofun, ?_⟩
    intro method member
    cases List.eq_of_mem_replicate member
  · exact fun _ => nofun
  · exact List.nodup_nil
  · exact Pooling.kept_open opened
  · exact fun _ => nofun
  · exact List.Perm.nil
  · exact fun _ => nofun

theorem answered_later (kept : Kept requests server) (more : List ModifyRequest) :
    ∀ execution ∈ server.executions, ∃ request database,
      (requests ++ more)[execution.pointer]? = some request ∧
        execution.outcome = SqlServerProxyDatabase.call database request := by
  intro execution member
  rcases kept.answered execution member with ⟨request, database, numbered, answered⟩
  exact ⟨request, database, numbered_later numbered more, answered⟩

theorem Kept.scheduler (kept : Kept requests server) {label : ProxyScheduler.Label}
    {scheduler : ProxyScheduler} (other : Label.isCall label = false)
    (step : ProxyScheduler.Step server.scheduler label scheduler) :
    Kept (requests ++ scheduledRequests [label]) { server with scheduler } := by
  have taken := ProxyScheduler.step_taken step
  constructor
  · exact ProxyScheduler.accounted_kept taken kept.accounted
  · exact numbered_kept taken kept.numbered
  · intro guard member
    exact calling_stays taken other (kept.manned guard member)
  · exact kept.distinct
  · exact kept.pooled
  · exact kept.connected
  · change (server.executions.map Execution.pointer).Perm (scheduler.called ++ _)
    rw [called_stays taken other]
    exact kept.executed
  · exact answered_later kept _

theorem Kept.acquire (kept : Kept requests server) {worker : Nat} {method : RequestMethod}
    {acquired : Option Nat × Pooling.DatabasePool}
    (calling : server.scheduler.threads[worker]? = some (.calling method))
    (free : server.guardOf worker = none) (returns : Pooling.acquire server.pool = some acquired) :
    Kept requests
      { server with
        pool := acquired.2
        guards := { worker, method, database := acquired.1, outcome := none } :: server.guards } := by
  rcases kept.pooled.acquires returns with ⟨number, _, _, _, result, _⟩
  have pooled : Pooling.Kept (Pooling.acquired worker _ acquired) := kept.pooled.acquired returns
  rw [result] at pooled ⊢
  constructor
  · exact kept.accounted
  · exact kept.numbered
  · intro guard member
    rcases List.mem_cons.mp member with same | old
    · rw [same]
      exact calling
    · exact kept.manned guard old
  · apply List.nodup_cons.mpr
    refine ⟨?_, kept.distinct⟩
    intro member
    rcases List.mem_map.mp member with ⟨guard, old, same⟩
    have other := List.find?_eq_none.mp free guard old
    exact other (beq_iff_eq.mpr same)
  · exact pooled
  · intro guard member
    rcases List.mem_cons.mp member with same | old
    · exact ⟨number, same ▸ rfl⟩
    · exact kept.connected guard old
  · exact kept.executed
  · exact kept.answered

theorem Kept.execute (kept : Kept requests server) {guard : Guard} (database : AdoDatabase)
    {number : Nat}
    (found : server.guardOf guard.worker = some guard) (connected : guard.database = some number)
    (unanswered : guard.outcome = none) :
    Kept requests
      { server with
        guards := { guard with
          outcome := some (SqlServerProxyDatabase.call database guard.method.request) } ::
            server.otherGuards guard.worker
        executions := server.executions ++
          [{ pointer := guard.method.pointer
             database := number
             outcome := SqlServerProxyDatabase.call database guard.method.request }]
        hasProcessEnded := (SqlServerProxyDatabase.call database guard.method.request).isNone } := by
  have split := guard_first kept.distinct found
  have member : guard ∈ server.guards := split.mem_iff.mpr List.mem_cons_self
  have others : ∀ other ∈ server.otherGuards guard.worker, other ∈ server.guards :=
    fun other => List.mem_of_mem_filter
  have manned := kept.manned guard member
  constructor
  · exact kept.accounted
  · exact kept.numbered
  · intro other inside
    rcases List.mem_cons.mp inside with same | old
    · rw [same]
      exact manned
    · exact kept.manned other (others other old)
  · exact (split.map Guard.worker).nodup_iff.mp kept.distinct
  · exact pooled_of_perm kept.pooled (split.filterMap Guard.holding).symm
  · intro other inside
    rcases List.mem_cons.mp inside with same | old
    · exact ⟨number, same ▸ connected⟩
    · exact kept.connected other (others other old)
  · have before := kept.executed
    have left : (performed server.guards).Perm (performed (server.otherGuards guard.worker)) := by
      have same := (split.filter fun guard => guard.outcome.isSome).map fun guard => guard.method.pointer
      rw [List.filter_cons_of_neg (by simp [unanswered])] at same
      exact same
    rw [List.map_append]
    change (_ ++ [guard.method.pointer]).Perm
      (server.scheduler.called ++ guard.method.pointer :: performed (server.otherGuards guard.worker))
    apply (List.perm_append_singleton _ _).trans
    exact ((before.trans (left.append_left _)).cons _).trans List.perm_middle.symm
  · intro execution inside
    rcases List.mem_append.mp inside with old | new
    · exact kept.answered execution old
    · cases List.mem_singleton.mp new
      exact ⟨guard.method.request, database,
        kept.numbered.inHand _ (List.mem_of_getElem? manned), rfl⟩

theorem Kept.release (kept : Kept requests server) {guard : Guard} {number : Nat} {outcome : CallOutcome}
    {scheduler : ProxyScheduler} (found : server.guardOf guard.worker = some guard)
    (connected : guard.database = some number) (answered : guard.outcome = some outcome)
    (step : ProxyScheduler.Step server.scheduler (.call guard.worker) scheduler) :
    Kept requests
      { server with
        scheduler
        pool := (Pooling.release number server.pool).2
        guards := server.otherGuards guard.worker } := by
  have split := guard_first kept.distinct found
  have member : guard ∈ server.guards := split.mem_iff.mpr List.mem_cons_self
  have others : ∀ other ∈ server.otherGuards guard.worker, other ∈ server.guards :=
    fun other => List.mem_of_mem_filter
  have numbered := numbered_kept (ProxyScheduler.step_taken step) kept.numbered
  have accounted := ProxyScheduler.accounted_kept (ProxyScheduler.step_taken step) kept.accounted
  have manned := kept.manned guard member
  rw [show requests ++ scheduledRequests [.call guard.worker] = requests from List.append_nil _] at numbered
  have holding : guard.holding = some { client := guard.worker, database := number } := by
    rw [Guard.holding, connected]
    rfl
  have held : { client := guard.worker, database := number } ∈ holdings server.guards :=
    List.mem_filterMap.mpr ⟨guard, member, holding⟩
  cases ProxyScheduler.step_taken step with
  | call _ method calling =>
      cases manned.symm.trans calling
      refine ⟨accounted, numbered, ?_, ?_, ?_, ?_, ?_, kept.answered⟩
      · intro other inside
        have apart : guard.worker ≠ other.worker := by
          have differs := (List.mem_filter.mp inside).2
          rw [bne_iff_ne] at differs
          exact differs.symm
        change (server.scheduler.threads.set guard.worker .testing)[other.worker]? = _
        rw [List.getElem?_set_ne apart]
        exact kept.manned other (others other inside)
      · exact (List.nodup_cons.mp ((split.map Guard.worker).nodup_iff.mp kept.distinct)).2
      · apply pooled_of_perm (kept.pooled.released held)
        have same := (split.filterMap Guard.holding).erase { client := guard.worker, database := number }
        rw [List.filterMap_cons_some holding, List.erase_cons_head] at same
        exact same.symm
      · intro other inside
        exact kept.connected other (others other inside)
      · have same := (split.filter fun guard => guard.outcome.isSome).map fun guard => guard.method.pointer
        rw [List.filter_cons_of_pos (by simp [answered]), List.map_cons] at same
        rw [List.append_assoc]
        exact kept.executed.trans (same.append_left _)

theorem Kept.step {next : ProxyServer} {label : Label} (kept : Kept requests server)
    (taken : Taken server label next) :
    Kept (requests ++ scheduledRequests label.ofScheduler.toList) next := by
  cases taken with
  | scheduler label scheduler other step => exact kept.scheduler other step
  | acquire worker method acquired calling free returns =>
      rw [show requests ++ scheduledRequests _ = requests from List.append_nil _]
      exact kept.acquire calling free returns
  | execute guard database number found connected unanswered =>
      rw [show requests ++ scheduledRequests _ = requests from List.append_nil _]
      exact kept.execute database found connected unanswered
  | release guard number outcome scheduler found connected answered step =>
      rw [show requests ++ scheduledRequests _ = requests from List.append_nil _]
      exact kept.release found connected answered step

def schedulerLabels (labels : List Label) : List ProxyScheduler.Label :=
  labels.filterMap Label.ofScheduler

theorem kept_run {threadCount : Nat} {opens : Nat → Bool} {connectionCount : UInt64}
    {pool : Pooling.DatabasePool}
    (opened : Pooling.openPool opens connectionCount Pooling.constructed = (true, pool))
    {labels : List Label} {last : ProxyServer} (run : Run Step (start threadCount pool) labels last) :
    Kept (scheduledRequests (schedulerLabels labels)) last := by
  apply run.invariant (fun labels => Kept (scheduledRequests (schedulerLabels labels)))
    (kept_start threadCount opened)
  intro history server label next kept step
  have same : scheduledRequests (schedulerLabels (history ++ [label])) =
      scheduledRequests (schedulerLabels history) ++ scheduledRequests label.ofScheduler.toList := by
    rw [schedulerLabels, List.filterMap_append, scheduledRequests, List.filterMap_append]
    rfl
  rw [same]
  exact kept.step (step_taken step)

theorem fewer_manned {guard : Guard} {rest : List Guard} {scheduler : ProxyScheduler}
    (manned : ∀ other ∈ guard :: rest, scheduler.threads[other.worker]? = some (.calling other.method))
    (distinct : ((guard :: rest).map Guard.worker).Nodup) :
    ∀ other ∈ rest, (scheduler.setWorker guard.worker .testing).threads[other.worker]? =
      some (.calling other.method) := by
  intro other member
  have apart : guard.worker ≠ other.worker := by
    intro same
    exact (List.nodup_cons.mp distinct).1 (same ▸ List.mem_map_of_mem member)
  change (scheduler.threads.set guard.worker .testing)[other.worker]? = _
  rw [List.getElem?_set_ne apart]
  exact manned other (List.mem_cons_of_mem _ member)

/-- Each guard stands for a request in hand of its own. -/
theorem performed_in_hand {guards : List Guard} {scheduler : ProxyScheduler}
    (manned : ∀ guard ∈ guards, scheduler.threads[guard.worker]? = some (.calling guard.method))
    (distinct : (guards.map Guard.worker).Nodup) (pointer : Nat) :
    (performed guards).count pointer ≤ (scheduler.threads.flatMap Worker.inHand).count pointer := by
  induction guards generalizing scheduler with
  | nil => exact Nat.zero_le _
  | cons guard rest induction =>
      have calling := manned guard List.mem_cons_self
      have later := induction (fewer_manned manned distinct) (List.nodup_cons.mp distinct).2
      have hands := ProxyScheduler.set_worker_in_hand calling .testing pointer
      have first : (performed (guard :: rest)).count pointer ≤
          (performed rest).count pointer + (Worker.calling guard.method).inHand.count pointer := by
        unfold performed
        rw [List.filter_cons]
        split
        · rw [List.map_cons, List.count_cons, Worker.inHand, List.count_singleton]
        · exact Nat.le_add_right _ _
      change _ + _ = _ + 0 at hands
      omega

/-- A request is executed at most once, and once when its call has returned. -/
theorem Kept.executed_count (kept : Kept requests server) (pointer : Nat) :
    (server.executions.map Execution.pointer).count pointer ≤ 1 ∧
      (pointer ∈ server.scheduler.called →
        (server.executions.map Execution.pointer).count pointer = 1) := by
  have counted := kept.executed.count_eq pointer
  have inHand := performed_in_hand kept.manned kept.distinct pointer
  have places := kept.accounted pointer
  rw [List.count_append] at counted
  unfold ProxyScheduler.occurrences at places
  have most : (server.executions.map Execution.pointer).count pointer ≤ 1 := by
    split at places <;> omega
  refine ⟨most, ?_⟩
  intro returned
  have positive := List.count_pos_iff.mpr returned
  omega

theorem held_of_guards (guards : List Guard) :
    (holdings guards).map Pooling.Holding.database = guards.filterMap Guard.database := by
  unfold holdings
  rw [List.map_filterMap]
  apply List.filterMap_congr
  intro guard _
  cases database : guard.database <;> simp [Guard.holding, database]

theorem databases_of_guards {guards : List Guard}
    (connected : ∀ guard ∈ guards, ∃ number, guard.database = some number) :
    guards.map Guard.database = (guards.filterMap Guard.database).map some := by
  induction guards with
  | nil => rfl
  | cons guard rest induction =>
      rcases connected guard List.mem_cons_self with ⟨number, database⟩
      rw [List.map_cons, List.filterMap_cons_some database, List.map_cons, database,
        induction fun other member => connected other (List.mem_cons_of_mem _ member)]

theorem idle_not_in_use {databases : List Pooling.Item}
    (distinct : (databases.map Pooling.Item.database).Nodup)
    {number : Nat} (inUse : number ∈ Pooling.inUse databases)
    (idle : number ∈ (databases.filter Pooling.Item.isIdle).map Pooling.Item.database) : False := by
  rcases List.mem_map.mp inUse with ⟨busy, busyMember, busyNumber⟩
  rcases List.mem_map.mp idle with ⟨free, freeMember, freeNumber⟩
  rcases List.mem_filter.mp busyMember with ⟨busyInside, busyFlag⟩
  rcases List.mem_filter.mp freeMember with ⟨freeInside, freeFlag⟩
  have same := List.inj_on_of_nodup_map distinct busyInside freeInside (busyNumber.trans freeNumber.symm)
  rw [same, freeFlag] at busyFlag
  cases busyFlag

end Steps

def oneConnection : Pooling.DatabasePool := (Pooling.openPool (fun _ => true) 1 Pooling.constructed).2

def anyDatabase : AdoDatabase :=
  { createsCommand := fun _ => true
    createsParameter := fun _ => true
    addParameter := fun _ => true
    setValue := fun _ => true
    executeNoRecords := fun _ => true }

def storedProcedure (argument : Int32) : ModifyRequest :=
  { priority := .normal
    type := .storedProcedure
    command := [112]
    params := [{ Param.initial with type := .int32, int32Value := argument }] }

/-- Two workers share a connection. The first has executed its request and stands before the end
of its call when the second wants the connection. -/
def sharing : List Label :=
  [.scheduler (.schedule (storedProcedure 1)), .scheduler (.schedule (storedProcedure 2)),
    .scheduler (.test 0), .scheduler (.test 1), .scheduler (.fetch 0 0), .scheduler (.fetch 1 0),
    .acquire 1, .execute 1 anyDatabase, .release 1, .acquire 0]

def Label.isWork : Label → Bool
  | scheduler (.schedule _) => false
  | scheduler .stop => false
  | scheduler .join => false
  | _ => true

def Label.isSchedule : Label → Bool
  | scheduler (.schedule _) => true
  | _ => false

/-- The steps that a worker has before it at most, once the flag is set; a request that it fetches
adds two. -/
def stepsLeft : Worker → Nat
  | .finished => 0
  | .testing => 1
  | .fetching => 2
  | .waiting => 3
  | .calling _ => 4

def stepsDone (guard : Guard) : Nat := if guard.outcome.isSome then 2 else 1

def workLeft (scheduler : ProxyScheduler) : Nat :=
  (scheduler.threads.map stepsLeft).sum + 3 * scheduler.requestQueue.length

def workDone (guards : List Guard) : Nat := (guards.map stepsDone).sum

section Draining

variable {requests : List ModifyRequest} {server next : ProxyServer}

theorem set_worker_left {scheduler : ProxyScheduler} {worker : Nat} {old : Worker}
    (found : scheduler.threads[worker]? = some old) (new : Worker) :
    ((scheduler.setWorker worker new).threads.map stepsLeft).sum + stepsLeft old =
      (scheduler.threads.map stepsLeft).sum + stepsLeft new := by
  rcases set_at found with ⟨earlier, later, whole, changes⟩
  rw [ProxyScheduler.setWorker, changes, whole]
  simp only [List.map_append, List.map_cons, List.sum_append, List.sum_cons]
  omega

theorem work_done_of_perm {before after : List Guard} (same : before.Perm after) :
    workDone before = workDone after := (same.map stepsDone).sum_nat

/-- The steps of the scheduler alone, while the flag is set. -/
theorem scheduler_drains {scheduler last : ProxyScheduler} {label : ProxyScheduler.Label}
    (taken : ProxyScheduler.Taken scheduler label last) (other : Label.isCall label = false)
    (work : (Label.scheduler label).isWork = true) (stopping : scheduler.stop = true) :
    last.stop = true ∧ workLeft last + 1 ≤ workLeft scheduler := by
  cases taken with
  | schedule _ => cases work
  | test worker found =>
      have left := set_worker_left found .finished
      rw [if_pos stopping]
      refine ⟨stopping, ?_⟩
      change _ + 1 = _ + 0 at left
      change (((scheduler.setWorker worker .finished).threads.map stepsLeft).sum + _) + 1 ≤ _ + _
      change (_ + 3 * scheduler.requestQueue.length) + 1 ≤ _
      omega
  | fetchNone worker index found _ =>
      have left := set_worker_left found .testing
      rw [if_pos stopping]
      refine ⟨stopping, ?_⟩
      change _ + 2 = _ + 1 at left
      change (((scheduler.setWorker worker .testing).threads.map stepsLeft).sum +
        3 * scheduler.requestQueue.length) + 1 ≤ _ + _
      omega
  | fetch worker index method found top =>
      have left := set_worker_left found (.calling method)
      refine ⟨stopping, ?_⟩
      rcases ProxyScheduler.top_splits top with ⟨earlier, later, whole, erased, _⟩
      have fewer : (scheduler.requestQueue.eraseIdx index).length + 1 =
          scheduler.requestQueue.length := by
        rw [erased, whole, List.length_append, List.length_append, List.length_cons]
        rfl
      change _ + 2 = _ + 4 at left
      change (((scheduler.setWorker worker (.calling method)).threads.map stepsLeft).sum +
        3 * (scheduler.requestQueue.eraseIdx index).length) + 1 ≤ _ + _
      omega
  | wake worker found =>
      have left := set_worker_left found .fetching
      refine ⟨stopping, ?_⟩
      change _ + 3 = _ + 2 at left
      change (((scheduler.setWorker worker .fetching).threads.map stepsLeft).sum +
        3 * scheduler.requestQueue.length) + 1 ≤ _ + _
      omega
  | call _ _ _ => cases other
  | stop running => exact absurd (stopping.symm.trans running) (by decide)
  | join _ _ => cases work

/-- Each step of a worker is paid for by what is left, or it is one of a guard. -/
theorem step_drains (kept : Kept requests server) {label : Label} (taken : Taken server label next)
    (work : label.isWork = true) (stopping : server.scheduler.stop = true) :
    next.scheduler.stop = true ∧
      workLeft next.scheduler + workDone server.guards + 1 ≤
        workLeft server.scheduler + workDone next.guards := by
  cases taken with
  | scheduler label scheduler other step =>
      rcases scheduler_drains (ProxyScheduler.step_taken step) other work stopping with ⟨still, drained⟩
      refine ⟨still, ?_⟩
      change workLeft scheduler + workDone server.guards + 1 ≤ _ + workDone server.guards
      omega
  | acquire worker method acquired _ _ _ =>
      refine ⟨stopping, ?_⟩
      change workLeft server.scheduler + workDone server.guards + 1 ≤
        workLeft server.scheduler + (1 + workDone server.guards)
      omega
  | execute guard database number found _ unanswered =>
      refine ⟨stopping, ?_⟩
      rw [work_done_of_perm (guard_first kept.distinct found)]
      have before : stepsDone guard = 1 := by
        rw [stepsDone, unanswered]
        rfl
      change
        workLeft server.scheduler + (stepsDone guard + workDone (server.otherGuards guard.worker)) + 1 ≤
        workLeft server.scheduler + (2 + workDone (server.otherGuards guard.worker))
      rw [before]
      omega
  | release guard number outcome scheduler found _ answered step =>
      rw [work_done_of_perm (guard_first kept.distinct found)]
      have before : stepsDone guard = 2 := by
        rw [stepsDone, answered]
        rfl
      cases ProxyScheduler.step_taken step with
      | call _ method calling =>
          have left := set_worker_left calling .testing
          refine ⟨stopping, ?_⟩
          change _ + 4 = _ + 1 at left
          change (((server.scheduler.setWorker guard.worker .testing).threads.map stepsLeft).sum +
            3 * server.scheduler.requestQueue.length) + (stepsDone guard + _) + 1 ≤
              (_ + _) + workDone (server.otherGuards guard.worker)
          rw [before]
          change _ + (2 + workDone (server.otherGuards guard.worker)) + 1 ≤ _
          omega

/-- What the guards have done is less than what their workers had before them. -/
theorem work_done_bounded {guards : List Guard} {scheduler : ProxyScheduler}
    (manned : ∀ guard ∈ guards, scheduler.threads[guard.worker]? = some (.calling guard.method))
    (distinct : (guards.map Guard.worker).Nodup) :
    workDone guards ≤ (scheduler.threads.map stepsLeft).sum := by
  induction guards generalizing scheduler with
  | nil => exact Nat.zero_le _
  | cons guard rest induction =>
      have calling := manned guard List.mem_cons_self
      have later := induction (fewer_manned manned distinct) (List.nodup_cons.mp distinct).2
      have left := set_worker_left calling .testing
      have first : stepsDone guard ≤ 2 := by
        unfold stepsDone
        split <;> decide
      change _ + 4 = _ + 1 at left
      change stepsDone guard + workDone rest ≤ _
      omega

theorem step_rests {label : Label} (taken : Taken server label next) (rest : label.isWork = false)
    (none : label.isSchedule = false) (stopping : server.scheduler.stop = true) :
    next.scheduler.stop = true ∧ workLeft next.scheduler = workLeft server.scheduler ∧
      next.guards = server.guards := by
  cases taken with
  | scheduler label scheduler other step =>
      cases ProxyScheduler.step_taken step with
      | schedule _ => cases none
      | stop running => exact absurd (stopping.symm.trans running) (by decide)
      | join _ _ => exact ⟨stopping, rfl, rfl⟩
      | test _ _ | fetchNone _ _ _ _ | fetch _ _ _ _ _ | wake _ _ | call _ _ _ => cases rest
  | acquire _ _ _ _ _ _ => cases rest
  | execute _ _ _ _ _ _ => cases rest
  | release _ _ _ _ _ _ _ _ => cases rest

theorem run_drains (kept : Kept requests server) (stopping : server.scheduler.stop = true)
    {labels : List Label} {last : ProxyServer} (run : Run Step server labels last)
    (none : ∀ label ∈ labels, label.isSchedule = false) :
    ∃ more, Kept more last ∧ last.scheduler.stop = true ∧
      labels.countP Label.isWork + workLeft last.scheduler + workDone server.guards ≤
        workLeft server.scheduler + workDone last.guards := by
  induction run with
  | start => exact ⟨requests, kept, stopping, by simp⟩
  | next _ step induction =>
      rename_i labels label _
      have taken := step_taken step
      rcases induction fun other member => none other (List.mem_append_left _ member) with
        ⟨more, middle, still, bound⟩
      refine ⟨_, middle.step taken, ?_⟩
      rw [List.countP_append, List.countP_singleton]
      cases work : label.isWork with
      | true =>
          rcases step_drains middle taken work still with ⟨stays, drained⟩
          refine ⟨stays, ?_⟩
          rw [if_pos rfl]
          omega
      | false =>
          have silent := none label (List.mem_append_right _ List.mem_cons_self)
          rcases step_rests taken work silent still with ⟨stays, left, guards⟩
          refine ⟨stays, ?_⟩
          rw [if_neg Bool.false_ne_true, left, guards]
          omega

theorem work_left_bounded (scheduler : ProxyScheduler) :
    workLeft scheduler ≤ 4 * scheduler.threads.length + 3 * scheduler.requestQueue.length := by
  have most : (scheduler.threads.map stepsLeft).sum ≤ scheduler.threads.length * 4 := by
    have each : ∀ steps ∈ scheduler.threads.map stepsLeft, steps ≤ 4 := by
      intro steps member
      rcases List.mem_map.mp member with ⟨worker, _, same⟩
      rw [← same]
      cases worker <;> simp [stepsLeft]
    have bound := List.sum_le_card_nsmul _ 4 each
    rw [List.length_map] at bound
    exact bound
  unfold workLeft
  omega

end Draining

section Progress

variable {requests : List ModifyRequest} {server : ProxyServer}

theorem guard_moves (kept : Kept requests server) {guard : Guard} (member : guard ∈ server.guards) :
    ∃ label, label.isWork = true ∧ (server.act label).isSome = true := by
  have present : (server.guardOf guard.worker).isSome := by
    rw [guardOf, List.find?_isSome]
    exact ⟨guard, member, beq_self_eq_true _⟩
  rcases Option.isSome_iff_exists.mp present with ⟨first, found⟩
  have inside : first ∈ server.guards := List.mem_of_find?_eq_some found
  have worker := guard_of_worker found
  rcases kept.connected first inside with ⟨number, connected⟩
  have manned := kept.manned first inside
  cases first with
  | mk holder method database outcome =>
      cases worker
      cases connected
      cases outcome with
      | none =>
          refine ⟨.execute guard.worker anyDatabase, rfl, ?_⟩
          simp only [act, found, Option.isSome_some]
      | some outcome =>
          refine ⟨.release guard.worker, rfl, ?_⟩
          simp only [act, found, ProxyScheduler.advance, manned, Option.map_some, Option.isSome_some]

/-- A worker that waits for a connection gets one, or another worker has one and can go on. -/
theorem waiting_moves (kept : Kept requests server) (connections : server.pool.databases ≠ [])
    {worker : Nat} {method : RequestMethod}
    (calling : server.scheduler.threads[worker]? = some (.calling method))
    (free : server.guardOf worker = none) :
    ∃ label, label.isWork = true ∧ (server.act label).isSome = true := by
  cases returns : Pooling.acquire server.pool with
  | some acquired =>
      refine ⟨.acquire worker, rfl, ?_⟩
      simp only [act, calling, free, returns, Option.map_some, Option.isSome_some]
  | none =>
      have empty : server.pool.idleDatabase.toNat = 0 := by
        unfold Pooling.acquire at returns
        split at returns
        · rename_i exhausted
          exact Nat.le_zero.mp (UInt64.le_iff_toNat_le.mp exhausted)
        · split at returns <;> cases returns
      have none := kept.pooled.counted.symm.trans empty
      rcases List.exists_mem_of_ne_nil _ connections with ⟨item, inside⟩
      have busy : item.isIdle = false := by
        rw [← Bool.not_eq_true]
        exact List.countP_eq_zero.mp none item inside
      have inUse : item.database ∈ Pooling.inUse server.pool.databases :=
        List.mem_map_of_mem (List.mem_filter.mpr ⟨inside, by rw [busy]; rfl⟩)
      have holds := kept.pooled.holds.mem_iff.mpr inUse
      rcases List.mem_map.mp holds with ⟨holding, held, _⟩
      rcases List.mem_filterMap.mp held with ⟨guard, member, _⟩
      exact guard_moves kept member

theorem some_on_top {scheduler : ProxyScheduler} (queued : scheduler.requestQueue ≠ []) :
    ∃ index method, scheduler.top index = some method := by
  cases greatest : scheduler.requestQueue.argmax fun method => method.priority.toByte.toNat with
  | none => exact absurd (List.argmax_eq_none.mp greatest) queued
  | some method =>
      have member := List.argmax_mem greatest
      rcases List.getElem?_of_mem member with ⟨index, found⟩
      refine ⟨index, method, ?_⟩
      rw [ProxyScheduler.top, found, Option.filter_some, if_pos]
      apply List.all_eq_true.mpr
      intro other inside
      have least := List.le_of_mem_argmax inside greatest
      rw [RequestMethod.less, Bool.not_eq_true', decide_eq_false_iff_not, UInt8.lt_iff_toNat_lt]
      exact Nat.not_lt.mpr least

/-- As long as a worker has not ended, one can make a step. -/
theorem worker_moves (kept : Kept requests server) (connections : server.pool.databases ≠ [])
    {worker : Nat} {state : Worker} (found : server.scheduler.threads[worker]? = some state)
    (alive : state ≠ .finished) :
    ∃ label, label.isWork = true ∧ (server.act label).isSome = true := by
  cases state with
  | testing =>
      refine ⟨.scheduler (.test worker), rfl, ?_⟩
      simp [act, Label.isCall, ProxyScheduler.advance, found]
  | fetching =>
      by_cases queued : server.scheduler.requestQueue = []
      · refine ⟨.scheduler (.fetch worker 0), rfl, ?_⟩
        simp [act, Label.isCall, ProxyScheduler.advance, ProxyScheduler.fetchRequest, found, queued]
      · rcases some_on_top queued with ⟨index, method, top⟩
        refine ⟨.scheduler (.fetch worker index), rfl, ?_⟩
        simp [act, Label.isCall, ProxyScheduler.advance, ProxyScheduler.fetchRequest, found, queued, top]
  | waiting =>
      refine ⟨.scheduler (.wake worker), rfl, ?_⟩
      simp [act, Label.isCall, ProxyScheduler.advance, found]
  | calling method =>
      cases guard : server.guardOf worker with
      | none => exact waiting_moves kept connections found guard
      | some holder => exact guard_moves kept (List.mem_of_find?_eq_some guard)
  | finished => exact absurd rfl alive

/-- The connections of the pool are those of `open`, whoever holds them. -/
theorem connections_stay (kept : Kept requests server) {label : Label} {next : ProxyServer}
    (taken : Taken server label next) :
    next.pool.databases.map Pooling.Item.database = server.pool.databases.map Pooling.Item.database := by
  cases taken with
  | scheduler label scheduler other step => rfl
  | acquire worker method acquired _ _ returns =>
      rcases kept.pooled.acquires returns with ⟨number, earlier, later, before, result, _⟩
      change server.pool.databases = _ at before
      rw [result, before]
      exact Pooling.databases_of_item earlier later number false
  | execute guard database number _ _ _ => rfl
  | release guard number outcome scheduler found connected _ _ =>
      have inside : guard ∈ server.guards := List.mem_of_find?_eq_some found
      have held : { client := guard.worker, database := number } ∈ holdings server.guards := by
        refine List.mem_filterMap.mpr ⟨guard, inside, ?_⟩
        rw [Guard.holding, connected]
        rfl
      rcases kept.pooled.releases held with ⟨earlier, later, before, released⟩
      change server.pool.databases = _ at before
      change (Pooling.release number server.pool) = _ at released
      rw [released, before]
      exact (Pooling.databases_of_item earlier later number false).symm

theorem connections_of_run {threadCount : Nat} {opens : Nat → Bool} {connectionCount : UInt64}
    {pool : Pooling.DatabasePool}
    (opened : Pooling.openPool opens connectionCount Pooling.constructed = (true, pool))
    {labels : List Label} {last : ProxyServer} (run : Run Step (start threadCount pool) labels last) :
    last.pool.databases.map Pooling.Item.database = List.range' 0 connectionCount.toNat := by
  induction run with
  | start =>
      change pool.databases.map _ = _
      unfold Pooling.openPool at opened
      split at opened
      · rename_i databases succeeds
        have items := Pooling.open_databases succeeds
        rw [show Pooling.constructed.databases = [] from rfl, List.nil_append] at items
        cases opened
        have numbers : (Pooling.Item.database ∘ fun database => (⟨database, true⟩ : Pooling.Item)) =
            id := rfl
        rw [items, List.map_map, numbers, List.map_id]
      · cases opened
  | next earlier step induction =>
      exact (connections_stay (kept_run opened earlier) (step_taken step)).trans induction

end Progress

/-- When all workers have ended, no request is in hand, and all connections are idle. -/
theorem ended_server {requests : List ModifyRequest} {server : ProxyServer} (kept : Kept requests server)
    (finished : ∀ worker ∈ server.scheduler.threads, worker = .finished) :
    server.guards = [] ∧
      enumerateIdleDatabases server.pool = server.pool.databases.map Pooling.Item.database ∧
      ∀ pointer < requests.length, pointer ∉ server.scheduler.requestQueue.map RequestMethod.pointer →
        (server.executions.map Execution.pointer).count pointer = 1 := by
  have none : server.guards = [] := by
    apply List.eq_nil_iff_forall_not_mem.mpr
    intro guard member
    cases finished _ (List.mem_of_getElem? (kept.manned guard member))
  refine ⟨none, ?_, ?_⟩
  · have unused := kept.pooled.holds
    rw [none] at unused
    have idle : server.pool.databases.filter Pooling.Item.isIdle = server.pool.databases := by
      apply List.filter_eq_self.mpr
      intro item member
      by_contra busy
      have inUse : item.database ∈ Pooling.inUse server.pool.databases :=
        List.mem_map_of_mem (List.mem_filter.mpr ⟨member, by simpa using busy⟩)
      have empty : Pooling.inUse server.pool.databases = [] := List.nil_perm.mp unused
      rw [empty] at inUse
      cases inUse
    rw [enumerateIdleDatabases, idle]
  · intro pointer known unqueued
    have places := kept.accounted pointer
    rw [ProxyScheduler.occurrences, ProxyScheduler.none_in_hand finished, List.count_nil, Nat.add_zero,
      List.count_eq_zero.mpr unqueued, Nat.zero_add, kept.numbered.created, if_pos known] at places
    exact (kept.executed_count pointer).2 (List.count_pos_iff.mp (by omega))

/-- Once `stop` has set the flag and nothing more is scheduled, the workers can make only so many
steps, and as long as one of them and the process have not ended some worker can make one. When all have
ended, no connection is held, and every request that is not left in the queue has been executed once. -/
theorem stopped_server_finishes (threadCount : Nat) (opens : Nat → Bool) (connectionCount : UInt64)
    (pool : Pooling.DatabasePool) (connections : 0 < connectionCount.toNat)
    (opened : Pooling.openPool opens connectionCount Pooling.constructed = (true, pool))
    (labels : List Label) (server : ProxyServer) (run : Run Step (start threadCount pool) labels server)
    (stopping : server.scheduler.stop = true) :
    (∀ more last, Run Step server more last → (∀ label ∈ more, label.isSchedule = false) →
      more.countP Label.isWork ≤
        4 * server.scheduler.threads.length + 3 * server.scheduler.requestQueue.length) ∧
    (server.hasProcessEnded = false → (∃ worker ∈ server.scheduler.threads, worker ≠ .finished) →
      ∃ label next, label.isWork = true ∧ Step server label next) ∧
    ((∀ worker ∈ server.scheduler.threads, worker = .finished) →
      server.guards = [] ∧ enumerateIdleDatabases server.pool = List.range' 0 connectionCount.toNat ∧
      ∀ pointer < (scheduledRequests (schedulerLabels labels)).length,
        pointer ∉ server.scheduler.requestQueue.map RequestMethod.pointer →
          (server.executions.map Execution.pointer).count pointer = 1) := by
  have kept := kept_run opened run
  have numbers := connections_of_run opened run
  refine ⟨?_, ?_, ?_⟩
  · intro more last continued none
    rcases run_drains kept stopping continued none with ⟨_, lastKept, _, bound⟩
    have done := work_done_bounded lastKept.manned lastKept.distinct
    have most := work_left_bounded server.scheduler
    have left : (last.scheduler.threads.map stepsLeft).sum ≤ workLeft last.scheduler :=
      Nat.le_add_right _ _
    omega
  · rintro running ⟨state, member, alive⟩
    rcases List.getElem?_of_mem member with ⟨worker, found⟩
    have some : server.pool.databases ≠ [] := by
      intro empty
      rw [empty, List.map_nil] at numbers
      have length := congrArg List.length numbers
      rw [List.length_range'] at length
      exact absurd length (Nat.ne_of_lt connections)
    rcases worker_moves kept some found alive with ⟨label, work, moves⟩
    rcases Option.isSome_iff_exists.mp moves with ⟨next, acts⟩
    refine ⟨label, next, work, ?_⟩
    rw [Step, advance, running, if_neg Bool.false_ne_true]
    exact acts
  · intro finished
    rcases ended_server kept finished with ⟨none, idle, executed⟩
    exact ⟨none, idle.trans numbers, executed⟩

theorem stopped_server_finishes_sharing : ∃ server,
    Run Step (start 2 oneConnection)
      [.scheduler (.schedule (storedProcedure 1)), .scheduler (.test 0), .scheduler (.test 1),
        .scheduler (.fetch 0 0), .acquire 0, .scheduler .stop] server ∧
      ∃ label next, label.isWork = true ∧ Step server label next := by
  have executes : (execute advance (start 2 oneConnection)
      [.scheduler (.schedule (storedProcedure 1)), .scheduler (.test 0), .scheduler (.test 1),
        .scheduler (.fetch 0 0), .acquire 0, .scheduler .stop]).map (fun server =>
          (server.scheduler.stop, server.hasProcessEnded, server.scheduler.threads[1]?)) =
            some (true, false, some .fetching) := by
    decide +kernel
  rcases Run.of_observed Step (fun _ _ _ taken => taken) executes with ⟨server, run, observed⟩
  simp only [Prod.mk.injEq] at observed
  refine ⟨server, run, ?_⟩
  apply (stopped_server_finishes 2 (fun _ => true) 1 oneConnection (by decide) rfl _ server run
    observed.1).2.1 observed.2.1
  exact ⟨.fetching, List.mem_of_getElem? observed.2.2, nofun⟩

end ProxyServer

end Sne.Database
