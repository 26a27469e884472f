import Mathlib.Data.List.Range
import Mathlib.Data.List.Sort

/-!
# The resource pool

`MemoryPool.h`, a pool that may grow, as the managers of memory blocks and of sessions use
it. A resource is known by its address, and the allocator gives new ones. The addresses
in use are kept in ascending order, the others in a queue.
-/

namespace Sne.Base

set_option autoImplicit false

structure MemoryPool where
  poolSize : Nat
  activeResources : List Nat
  inactiveResources : List Nat
  allocated : Nat
  sorted : activeResources.Pairwise (· ≤ ·)
  separate : (activeResources ++ inactiveResources).Nodup
  known : ∀ resource ∈ activeResources ++ inactiveResources, resource < allocated

namespace MemoryPool

def spareSize (pool : MemoryPool) : Nat := max 1 (pool.poolSize / 10)

def isFull (pool : MemoryPool) : Bool := decide (pool.inactiveResources.length ≤ pool.spareSize)

def neededSize (pool : MemoryPool) : Nat :=
  pool.poolSize + pool.spareSize - pool.inactiveResources.length

theorem prepare_separate (pool : MemoryPool) (count : Nat) :
    (pool.activeResources ++
      (pool.inactiveResources ++ List.range' pool.allocated count)).Nodup := by
  rw [← List.append_assoc]
  apply List.Nodup.append pool.separate (List.nodup_range' 1)
  intro resource old fresh
  have bound := pool.known resource old
  have start := (List.mem_range'_1.mp fresh).1
  omega

theorem prepare_known (pool : MemoryPool) (count : Nat) :
    ∀ resource ∈ pool.activeResources ++
      (pool.inactiveResources ++ List.range' pool.allocated count),
      resource < pool.allocated + count := by
  intro resource member
  rw [← List.append_assoc] at member
  rcases List.mem_append.mp member with old | fresh
  · have bound := pool.known resource old
    omega
  · exact (List.mem_range'_1.mp fresh).2

def prepareResources (pool : MemoryPool) : MemoryPool :=
  { pool with
    inactiveResources := pool.inactiveResources ++ List.range' pool.allocated pool.neededSize
    allocated := pool.allocated + pool.neededSize
    separate := pool.prepare_separate pool.neededSize
    known := pool.prepare_known pool.neededSize }

def insertActiveResource (resource : Nat) (activeResources : List Nat) : List Nat :=
  activeResources.orderedInsert (· ≤ ·) resource

theorem activate_perm {pool : MemoryPool} {resource : Nat} {rest : List Nat}
    (split : pool.inactiveResources = resource :: rest) :
    (insertActiveResource resource pool.activeResources ++ rest).Perm
      (pool.activeResources ++ pool.inactiveResources) := by
  rw [split]
  apply ((List.perm_orderedInsert (· ≤ ·) resource pool.activeResources).append_right rest).trans
  exact List.perm_middle.symm

theorem activate_separate {pool : MemoryPool} {resource : Nat} {rest : List Nat}
    (split : pool.inactiveResources = resource :: rest) :
    (insertActiveResource resource pool.activeResources ++ rest).Nodup :=
  (activate_perm split).nodup_iff.mpr pool.separate

theorem activate_known {pool : MemoryPool} {resource : Nat} {rest : List Nat}
    (split : pool.inactiveResources = resource :: rest) :
    ∀ other ∈ insertActiveResource resource pool.activeResources ++ rest, other < pool.allocated := by
  intro other member
  exact pool.known other ((activate_perm split).mem_iff.mp member)

/-- The pool after a resource was asked for, unless it has grown and is still empty. -/
def acquire (pool : MemoryPool) : Option (Nat × MemoryPool) :=
  let ready := if pool.isFull then pool.prepareResources else pool
  match split : ready.inactiveResources with
  | [] => none
  | resource :: rest => some (resource,
      { ready with
        activeResources := insertActiveResource resource ready.activeResources
        inactiveResources := rest
        sorted := ready.sorted.orderedInsert resource ready.activeResources
        separate := activate_separate split
        known := activate_known split })

def findActiveResource (resource : Nat) (activeResources : List Nat) : List Nat :=
  activeResources.dropWhile (· < resource)

def eraseActiveResource (resource : Nat) (activeResources : List Nat) : List Nat :=
  activeResources.takeWhile (· < resource) ++ (findActiveResource resource activeResources).tail

theorem find_active_resource {resource : Nat} {activeResources : List Nat}
    (sorted : activeResources.Pairwise (· ≤ ·)) :
    (findActiveResource resource activeResources).head? = some resource ↔
      resource ∈ activeResources := by
  unfold findActiveResource
  induction activeResources with
  | nil => simp
  | cons first rest induction =>
      rcases List.pairwise_cons.mp sorted with ⟨least, sortedRest⟩
      rw [List.dropWhile_cons]
      by_cases smaller : first < resource
      · rw [if_pos (decide_eq_true smaller), induction sortedRest, List.mem_cons]
        have other : resource ≠ first := by omega
        exact (or_iff_right other).symm
      · rw [if_neg (by simpa using smaller), List.head?_cons, Option.some.injEq, List.mem_cons]
        constructor
        · intro same
          exact .inl same.symm
        · intro member
          rcases member with same | later
          · exact same.symm
          · have bound := least resource later
            omega

theorem erase_active_perm {resource : Nat} {activeResources : List Nat}
    (found : (findActiveResource resource activeResources).head? = some resource) :
    (resource :: eraseActiveResource resource activeResources).Perm activeResources := by
  have split : activeResources.takeWhile (· < resource) ++
      findActiveResource resource activeResources = activeResources := List.takeWhile_append_dropWhile
  have cons : findActiveResource resource activeResources =
      resource :: (findActiveResource resource activeResources).tail := by
    rw [List.head?_eq_some_iff] at found
    rcases found with ⟨rest, same⟩
    rw [same, List.tail_cons]
  rw [cons] at split
  exact List.perm_middle.symm.trans (List.Perm.of_eq split)

theorem erase_active_sublist (resource : Nat) (activeResources : List Nat) :
    (eraseActiveResource resource activeResources).Sublist activeResources := by
  have split : activeResources.takeWhile (· < resource) ++
      findActiveResource resource activeResources = activeResources := List.takeWhile_append_dropWhile
  have shorter : (eraseActiveResource resource activeResources).Sublist
      (activeResources.takeWhile (· < resource) ++ findActiveResource resource activeResources) :=
    List.Sublist.append_left (List.tail_sublist _) _
  rw [split] at shorter
  exact shorter

theorem deactivate_perm {pool : MemoryPool} {resource : Nat}
    (found : (findActiveResource resource pool.activeResources).head? = some resource) :
    (eraseActiveResource resource pool.activeResources ++ (pool.inactiveResources ++ [resource])).Perm
      (pool.activeResources ++ pool.inactiveResources) := by
  apply List.Perm.trans _ ((erase_active_perm found).append_right pool.inactiveResources)
  rw [← List.append_assoc]
  exact List.perm_append_singleton resource _

theorem deactivate_separate {pool : MemoryPool} {resource : Nat}
    (found : (findActiveResource resource pool.activeResources).head? = some resource) :
    (eraseActiveResource resource pool.activeResources ++
      (pool.inactiveResources ++ [resource])).Nodup :=
  (deactivate_perm found).nodup_iff.mpr pool.separate

theorem deactivate_known {pool : MemoryPool} {resource : Nat}
    (found : (findActiveResource resource pool.activeResources).head? = some resource) :
    ∀ other ∈ eraseActiveResource resource pool.activeResources ++ (pool.inactiveResources ++ [resource]),
      other < pool.allocated := by
  intro other member
  exact pool.known other ((deactivate_perm found).mem_iff.mp member)

/-- A resource that is not in use is left alone; the source asserts that this does not
happen. -/
def release (resource : Nat) (pool : MemoryPool) : MemoryPool :=
  if found : (findActiveResource resource pool.activeResources).head? = some resource then
    { pool with
      activeResources := eraseActiveResource resource pool.activeResources
      inactiveResources := pool.inactiveResources ++ [resource]
      sorted := pool.sorted.sublist (erase_active_sublist resource pool.activeResources)
      separate := deactivate_separate found
      known := deactivate_known found }
  else
    pool

def empty (poolSize : Nat) : MemoryPool :=
  { poolSize
    activeResources := []
    inactiveResources := []
    allocated := 0
    sorted := List.Pairwise.nil
    separate := List.nodup_nil
    known := nofun }

def create (poolSize : Nat) : MemoryPool := (empty poolSize).prepareResources

theorem active_not_inactive {pool : MemoryPool} {resource : Nat}
    (active : resource ∈ pool.activeResources) : resource ∉ pool.inactiveResources := by
  intro inactive
  exact List.disjoint_of_nodup_append pool.separate active inactive

theorem ready_active (pool : MemoryPool) :
    (if pool.isFull then pool.prepareResources else pool).activeResources = pool.activeResources := by
  split
  · rfl
  · rfl

theorem acquire_active {pool next : MemoryPool} {resource : Nat}
    (acquired : pool.acquire = some (resource, next)) :
    resource ∉ pool.activeResources ∧
      ∀ other, other ∈ next.activeResources ↔ other = resource ∨ other ∈ pool.activeResources := by
  unfold acquire at acquired
  dsimp only at acquired
  split at acquired
  · cases acquired
  · rename_i rest split
    cases acquired
    constructor
    · intro active
      rw [← ready_active] at active
      apply active_not_inactive active
      rw [split]
      exact List.mem_cons_self
    · intro other
      rw [← ready_active pool]
      exact List.mem_orderedInsert _

theorem acquire_succeeds (pool : MemoryPool) :
    ∃ resource next, pool.acquire = some (resource, next) := by
  unfold acquire
  dsimp only
  split
  · rename_i none
    have spare : 0 < pool.spareSize := Nat.lt_of_lt_of_le Nat.zero_lt_one (Nat.le_max_left 1 _)
    have count := congrArg List.length none
    rw [List.length_nil] at count
    cases full : pool.isFull with
    | true =>
        rw [full, if_pos rfl] at count
        simp only [prepareResources, List.length_append, List.length_range', neededSize] at count
        omega
    | false =>
        rw [full, if_neg Bool.false_ne_true] at count
        simp only [isFull, decide_eq_false_iff_not, count] at full
        omega
  · exact ⟨_, _, rfl⟩

theorem release_active (pool : MemoryPool) (resource other : Nat) :
    other ∈ (pool.release resource).activeResources ↔
      other ∈ pool.activeResources ∧ other ≠ resource := by
  unfold release
  split
  · rename_i found
    have distinct : (resource :: eraseActiveResource resource pool.activeResources).Nodup :=
      (erase_active_perm found).nodup_iff.mpr pool.separate.of_append_left
    rw [← (erase_active_perm found).mem_iff, List.mem_cons]
    constructor
    · intro member
      refine ⟨.inr member, ?_⟩
      intro same
      rw [same] at member
      exact (List.nodup_cons.mp distinct).1 member
    · intro member
      exact member.1.resolve_left member.2
  · rename_i missing
    rw [find_active_resource pool.sorted] at missing
    constructor
    · intro member
      refine ⟨member, ?_⟩
      intro same
      rw [same] at member
      exact missing member
    · intro member
      exact member.1

end MemoryPool

end Sne.Base
