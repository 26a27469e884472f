import Mathlib.Data.List.Perm.Basic
import Sne.Library.Runs

/-!
# The pool of direct database connections

`DatabasePool.cpp` and the clients that hold its connections. The lock regions of `acquire`
and `release` are the steps; a client that waits inside `acquire` has changed nothing.
-/

namespace Sne.Database.Pooling

open Sne.Library.Runs

set_option autoImplicit false

/-- A connection is known by the number of its creation. -/
structure Item where
  database : Nat
  isIdle : Bool
deriving DecidableEq, Repr

structure DatabasePool where
  databases : List Item
  idleDatabase : UInt64
deriving DecidableEq, Repr

def constructed : DatabasePool := { databases := [], idleDatabase := 0 }

/-- The loop of `open` with its `count`. The connections before one that does not open are
kept. -/
def openDatabases (opens : Nat → Bool) : Nat → Nat → List Item → Bool × List Item
  | 0, _, databases => (true, databases)
  | remaining + 1, count, databases =>
      if opens count then
        openDatabases opens remaining (count + 1) (databases ++ [{ database := count, isIdle := true }])
      else
        (false, databases)

def openPool (opens : Nat → Bool) (connectionCount : UInt64) (pool : DatabasePool) :
    Bool × DatabasePool :=
  match openDatabases opens connectionCount.toNat 0 pool.databases with
  | (true, databases) => (true, { databases, idleDatabase := connectionCount })
  | (false, databases) => (false, { pool with databases })

/-- The loop of `acquire`: the first idle connection, and the items with it in use. -/
def takeIdle : List Item → Option (Nat × List Item)
  | [] => none
  | item :: rest =>
      if item.isIdle then
        some (item.database, { item with isIdle := false } :: rest)
      else
        (takeIdle rest).map fun taken => (taken.1, item :: taken.2)

/-- `none` while the client waits. Inside, `none` is the null pointer of the failing
return, which the source asserts not to reach; the counter has moved then. -/
def acquire (pool : DatabasePool) : Option (Option Nat × DatabasePool) :=
  if pool.idleDatabase ≤ 0 then
    none
  else
    match takeIdle pool.databases with
    | some (database, databases) =>
        some (some database, { databases, idleDatabase := pool.idleDatabase - 1 })
    | none => some (none, { pool with idleDatabase := pool.idleDatabase - 1 })

/-- The loop of `release`: whether the item was idle, which the source asserts it was not,
and the items with it idle. -/
def giveBack (database : Nat) : List Item → Option (Bool × List Item)
  | [] => none
  | item :: rest =>
      if item.database = database then
        some (item.isIdle, { item with isIdle := true } :: rest)
      else
        (giveBack database rest).map fun given => (given.1, item :: given.2)

/-- `none` where no item has the connection; the source asserts that this is not reached. -/
def release (database : Nat) (pool : DatabasePool) : Option Bool × DatabasePool :=
  match giveBack database pool.databases with
  | some (wasIdle, databases) =>
      (some wasIdle, { databases, idleDatabase := pool.idleDatabase + 1 })
  | none => (none, pool)

structure Holding where
  client : Nat
  database : Nat
deriving DecidableEq, Repr

structure Service where
  pool : DatabasePool
  holdings : List Holding
deriving DecidableEq, Repr

inductive Label where
  | acquire (client : Nat)
  | release (client database : Nat)
deriving DecidableEq, Repr

def acquired (client : Nat) (service : Service) (result : Option Nat × DatabasePool) : Service :=
  { pool := result.2
    holdings := (result.1.map fun database => { client, database }).toList ++ service.holdings }

/-- Clients release only what they hold. -/
def next (service : Service) : Label → Option Service
  | .acquire client => (acquire service.pool).map (acquired client service)
  | .release client database =>
      if { client, database } ∈ service.holdings then
        some { pool := (release database service.pool).2
               holdings := service.holdings.erase { client, database } }
      else
        none

def Step (service : Service) (label : Label) (later : Service) : Prop := next service label = some later

def held (service : Service) : List Nat := service.holdings.map Holding.database

def inUse (databases : List Item) : List Nat :=
  (databases.filter fun item => !item.isIdle).map Item.database

def idleCount (databases : List Item) : Nat := databases.countP Item.isIdle

section Loops

theorem open_databases {opens : Nat → Bool} {remaining count : Nat} {databases opened : List Item}
    (succeeds : openDatabases opens remaining count databases = (true, opened)) :
    opened = databases ++ (List.range' count remaining).map fun database => ⟨database, true⟩ := by
  induction remaining generalizing count databases with
  | zero =>
      cases succeeds
      exact (List.append_nil _).symm
  | succ remaining induction =>
      unfold openDatabases at succeeds
      split at succeeds
      · rw [induction succeeds, List.range'_succ, List.map_cons, List.append_assoc, List.singleton_append]
      · cases succeeds

theorem take_idle {databases taken : List Item} {database : Nat}
    (found : takeIdle databases = some (database, taken)) :
    ∃ earlier later, databases = earlier ++ ⟨database, true⟩ :: later ∧
      taken = earlier ++ ⟨database, false⟩ :: later := by
  induction databases generalizing taken with
  | nil => cases found
  | cons item rest induction =>
      unfold takeIdle at found
      split at found
      · rename_i idle
        cases item
        cases idle
        cases found
        exact ⟨[], rest, rfl, rfl⟩
      · rcases Option.map_eq_some_iff.mp found with ⟨inner, takes, same⟩
        cases same
        rcases induction takes with ⟨earlier, later, before, after⟩
        refine ⟨item :: earlier, later, ?_, ?_⟩
        · rw [before, List.cons_append]
        · rw [after, List.cons_append]

theorem no_idle {databases : List Item} (missing : takeIdle databases = none) :
    idleCount databases = 0 := by
  induction databases with
  | nil => rfl
  | cons item rest induction =>
      unfold takeIdle at missing
      split at missing
      · cases missing
      · rename_i busy
        unfold idleCount at induction ⊢
        rw [List.countP_cons_of_neg busy]
        exact induction (Option.map_eq_none_iff.mp missing)

theorem give_back {earlier later : List Item} {database : Nat} {isIdle : Bool}
    (distinct : ((earlier ++ ⟨database, isIdle⟩ :: later).map Item.database).Nodup) :
    giveBack database (earlier ++ ⟨database, isIdle⟩ :: later) =
      some (isIdle, earlier ++ ⟨database, true⟩ :: later) := by
  induction earlier with
  | nil => exact if_pos rfl
  | cons item earlier induction =>
      rw [List.cons_append, List.map_cons] at distinct
      have other : item.database ≠ database := by
        intro same
        apply (List.nodup_cons.mp distinct).1
        rw [same, List.map_append]
        exact List.mem_append_right _ List.mem_cons_self
      rw [List.cons_append, giveBack, if_neg other, induction (List.nodup_cons.mp distinct).2]
      rfl

end Loops

section Items

variable (earlier later : List Item) (database : Nat)

theorem idle_count_idle : idleCount (earlier ++ ⟨database, true⟩ :: later) =
    idleCount (earlier ++ ⟨database, false⟩ :: later) + 1 := by
  unfold idleCount
  rw [List.countP_append, List.countP_append, List.countP_cons_of_pos rfl,
    List.countP_cons_of_neg Bool.false_ne_true, Nat.add_assoc]

theorem in_use_busy : (inUse (earlier ++ ⟨database, false⟩ :: later)).Perm
    (database :: inUse (earlier ++ ⟨database, true⟩ :: later)) := by
  unfold inUse
  rw [List.filter_append, List.filter_append, List.filter_cons_of_pos rfl,
    List.filter_cons_of_neg Bool.false_ne_true, List.map_append, List.map_append, List.map_cons]
  exact List.perm_middle

theorem length_of_item (isIdle : Bool) : (earlier ++ (⟨database, isIdle⟩ : Item) :: later).length =
    (earlier ++ (⟨database, true⟩ : Item) :: later).length := by
  rw [List.length_append, List.length_append, List.length_cons, List.length_cons]

theorem idle_count_lt : idleCount (earlier ++ ⟨database, false⟩ :: later) <
    (earlier ++ (⟨database, false⟩ : Item) :: later).length := by
  have most : idleCount (earlier ++ ⟨database, true⟩ :: later) ≤
      (earlier ++ (⟨database, true⟩ : Item) :: later).length := List.countP_le_length
  rw [idle_count_idle] at most
  rw [length_of_item]
  exact most

theorem databases_of_item (isIdle : Bool) : (earlier ++ ⟨database, isIdle⟩ :: later).map Item.database =
    (earlier ++ ⟨database, true⟩ :: later).map Item.database := by
  rw [List.map_append, List.map_append]
  rfl

end Items

/-- The counter agrees with the flags, and the clients hold what is in use. -/
structure Kept (service : Service) : Prop where
  counted : service.pool.idleDatabase.toNat = idleCount service.pool.databases
  distinct : (service.pool.databases.map Item.database).Nodup
  bounded : service.pool.databases.length < UInt64.size
  holds : (held service).Perm (inUse service.pool.databases)

theorem in_use_of_idle (databases : List Nat) :
    inUse (databases.map fun database => ⟨database, true⟩) = [] := by
  unfold inUse
  rw [List.map_eq_nil_iff, List.filter_eq_nil_iff]
  intro item member
  rcases List.mem_map.mp member with ⟨database, _, same⟩
  cases same
  exact Bool.false_ne_true

theorem idle_count_of_idle (databases : List Nat) :
    idleCount (databases.map fun database => ⟨database, true⟩) = databases.length := by
  unfold idleCount
  rw [List.countP_map]
  exact List.countP_eq_length.mpr fun _ _ => rfl

theorem kept_open {opens : Nat → Bool} {connectionCount : UInt64} {pool : DatabasePool}
    (opened : openPool opens connectionCount constructed = (true, pool)) :
    Kept { pool, holdings := [] } := by
  unfold openPool at opened
  split at opened
  · rename_i databases succeeds
    have items := open_databases succeeds
    rw [show constructed.databases = [] from rfl, List.nil_append] at items
    cases opened
    constructor
    · rw [items, idle_count_of_idle, List.length_range']
    · have numbers : (Item.database ∘ fun database => (⟨database, true⟩ : Item)) = id := rfl
      rw [items, List.map_map, numbers, List.map_id]
      exact List.nodup_range' 1
    · rw [items, List.length_map, List.length_range']
      exact connectionCount.toNat_lt_size
    · rw [items, in_use_of_idle]
      exact List.Perm.refl _
  · cases opened

/-- A client that need not wait gets an idle connection. -/
theorem Kept.acquires {service : Service} (kept : Kept service) {result : Option Nat × DatabasePool}
    (returns : acquire service.pool = some result) :
    ∃ database earlier later,
      service.pool.databases = earlier ++ ⟨database, true⟩ :: later ∧
      result = (some database, { databases := earlier ++ ⟨database, false⟩ :: later,
                                 idleDatabase := service.pool.idleDatabase - 1 }) ∧
      0 < service.pool.idleDatabase.toNat := by
  unfold acquire at returns
  split at returns
  · cases returns
  · rename_i available
    have positive : 0 < service.pool.idleDatabase.toNat := by
      have above := UInt64.lt_iff_toNat_lt.mp (UInt64.not_le.mp available)
      exact above
    split at returns
    · rename_i database taken found
      cases returns
      rcases take_idle found with ⟨earlier, later, before, after⟩
      cases after
      exact ⟨database, earlier, later, before, rfl, positive⟩
    · rename_i missing
      have none := no_idle missing
      have counted := kept.counted
      omega

theorem Kept.releases {service : Service} (kept : Kept service) {holding : Holding}
    (member : holding ∈ service.holdings) :
    ∃ earlier later,
      service.pool.databases = earlier ++ ⟨holding.database, false⟩ :: later ∧
      release holding.database service.pool =
        (some false, { databases := earlier ++ ⟨holding.database, true⟩ :: later,
                       idleDatabase := service.pool.idleDatabase + 1 }) := by
  have holds : holding.database ∈ inUse service.pool.databases :=
    kept.holds.mem_iff.mp (List.mem_map_of_mem member)
  rcases List.mem_map.mp holds with ⟨item, busy, same⟩
  rcases List.mem_filter.mp busy with ⟨contained, flag⟩
  rcases List.append_of_mem contained with ⟨earlier, later, split⟩
  have form : item = ⟨holding.database, false⟩ := by
    cases item with
    | mk database isIdle =>
        cases same
        cases isIdle with
        | false => rfl
        | true => cases flag
  rw [form] at split
  refine ⟨earlier, later, split, ?_⟩
  have distinct := kept.distinct
  rw [split] at distinct
  unfold release
  rw [split, give_back distinct]

theorem Kept.acquired {service : Service} (kept : Kept service) {client : Nat}
    {result : Option Nat × DatabasePool} (returns : acquire service.pool = some result) :
    Kept (acquired client service result) := by
  rcases kept.acquires returns with ⟨database, earlier, later, before, result, positive⟩
  rw [result]
  constructor
  · have counted := kept.counted
    rw [before, idle_count_idle] at counted
    change (service.pool.idleDatabase - 1).toNat = _
    have least : 1 ≤ service.pool.idleDatabase := UInt64.le_iff_toNat_le.mpr positive
    rw [UInt64.toNat_sub_of_le _ _ least, counted]
    exact Nat.add_sub_cancel _ _
  · have distinct := kept.distinct
    rw [before, ← databases_of_item _ _ _ false] at distinct
    exact distinct
  · have bound := kept.bounded
    rw [before, ← length_of_item _ _ _ false] at bound
    exact bound
  · have same := kept.holds
    rw [before] at same
    exact (same.cons database).trans (in_use_busy earlier later database).symm

theorem Kept.released {service : Service} (kept : Kept service) {holding : Holding}
    (member : holding ∈ service.holdings) :
    Kept { pool := (release holding.database service.pool).2
           holdings := service.holdings.erase holding } := by
  rcases kept.releases member with ⟨earlier, later, before, released⟩
  rw [released]
  constructor
  · have counted := kept.counted
    have bound := kept.bounded
    rw [before] at counted bound
    have room : service.pool.idleDatabase.toNat + 1 < UInt64.size := by
      rw [counted]
      exact Nat.lt_of_le_of_lt (idle_count_lt earlier later holding.database) bound
    change (service.pool.idleDatabase + 1).toNat = _
    rw [UInt64.toNat_add, UInt64.toNat_one, Nat.mod_eq_of_lt room, counted]
    exact (idle_count_idle earlier later holding.database).symm
  · have distinct := kept.distinct
    rw [before, databases_of_item] at distinct
    exact distinct
  · have bound := kept.bounded
    rw [before, length_of_item] at bound
    exact bound
  · have same := kept.holds
    rw [before] at same
    have erased : (held service).Perm
        (holding.database :: (service.holdings.erase holding).map Holding.database) :=
      (List.perm_cons_erase member).map Holding.database
    apply (List.perm_cons holding.database).mp
    exact erased.symm.trans (same.trans (in_use_busy earlier later holding.database))

theorem Kept.step {service later : Service} {label : Label} (kept : Kept service)
    (taken : Step service label later) : Kept later := by
  cases label with
  | acquire client =>
      rcases Option.map_eq_some_iff.mp taken with ⟨result, returns, same⟩
      cases same
      exact kept.acquired returns
  | release client database =>
      change (if _ ∈ service.holdings then some _ else none) = some later at taken
      split at taken
      · rename_i member
        cases taken
        exact kept.released member
      · cases taken

theorem kept_run {opens : Nat → Bool} {connectionCount : UInt64} {pool : DatabasePool}
    (opened : openPool opens connectionCount constructed = (true, pool)) {labels : List Label}
    {service : Service} (run : Run Step { pool, holdings := [] } labels service) : Kept service := by
  apply run.invariant (fun _ service => Kept service) (kept_open opened)
  intro _ service label later kept taken
  exact kept.step taken

/-- No two items are in use for one connection. -/
theorem Kept.held_distinct {service : Service} (kept : Kept service) : (held service).Nodup := by
  apply kept.holds.nodup_iff.mpr
  exact kept.distinct.sublist (List.filter_sublist.map Item.database)

/-- After a successful `open` of a newly constructed pool and any steps of the clients, the counter
and the flags agree, a connection is held once or is idle, and neither asserted branch is reached. -/
theorem connections_are_held_once (opens : Nat → Bool) (connectionCount : UInt64) (pool : DatabasePool)
    (opened : openPool opens connectionCount constructed = (true, pool)) (labels : List Label)
    (service : Service) (run : Run Step { pool, holdings := [] } labels service) :
    service.pool.idleDatabase.toNat = idleCount service.pool.databases ∧
    (held service).Nodup ∧
    (held service).Perm (inUse service.pool.databases) ∧
    (∀ result later, acquire service.pool = some (result, later) → ∃ database, result = some database) ∧
    (∀ holding ∈ service.holdings, (release holding.database service.pool).1 = some false) := by
  have kept : Kept service := kept_run opened run
  refine ⟨kept.counted, kept.held_distinct, kept.holds, ?_, ?_⟩
  · intro result later returns
    rcases kept.acquires returns with ⟨database, _, _, _, same, _⟩
    exact ⟨database, congrArg Prod.fst same⟩
  · intro holding member
    rcases kept.releases member with ⟨_, _, _, released⟩
    rw [released]

def threeConnections : DatabasePool := (openPool (fun _ => true) 3 constructed).2

def exchanges : List Label :=
  [.acquire 1, .acquire 2, .acquire 1, .release 1 0, .acquire 3]

theorem connections_are_held_once_exchanges : ∃ service,
    Run Step { pool := threeConnections, holdings := [] } exchanges service ∧
    held service = [0, 2, 1] ∧
    service.pool.idleDatabase.toNat = idleCount service.pool.databases := by
  have executes : (execute next { pool := threeConnections, holdings := [] } exchanges).map held =
      some [0, 2, 1] := by decide +kernel
  rcases Run.of_observed Step (fun _ _ _ taken => taken) executes with ⟨service, run, observed⟩
  refine ⟨service, run, observed, ?_⟩
  exact (connections_are_held_once (fun _ => true) 3 threeConnections rfl exchanges service run).1

end Sne.Database.Pooling
