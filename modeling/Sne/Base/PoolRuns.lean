import Mathlib.Data.List.Perm.Basic
import Mathlib.Data.List.Range
import Mathlib.Data.List.Sort
import Sne.Library.Bisection
import Sne.Library.ByteMemory
import Sne.Library.Runs

/-!
# Runs of a resource pool

`MemoryPool.h` with any allocator, growing or not, and with sizes of 64 bits. A resource is
a pointer. The vector of the resources in use is searched by halving, so that `release` and
`acquire` depend on its order; whatever is released, the order stays.
-/

namespace Sne.Base.PoolRuns

open Sne.Library.Bisection Sne.Library.ByteMemory Sne.Library.Runs

set_option autoImplicit false

inductive PoolCallback where
  | poolGrowing (neededSize : Nat)
  | poolGrowed (activeResourceSize inactiveResourceSize : Nat)
  deriving DecidableEq, Repr

/-- `allocations` counts the calls of the allocator. -/
structure Pool where
  poolSize : Nat
  growable : Bool
  activeResources : List Nat := []
  inactiveResources : List Nat := []
  allocations : Nat := 0
  callbacks : List PoolCallback := []
  deriving DecidableEq, Repr

inductive Acquired where
  | null
  | resource (pointer : Nat)
  | badAlloc
  deriving DecidableEq, Repr

def findActiveResource (resource : Nat) (activeResources : List Nat) : Nat :=
  lowerBound (fun active => decide (active < resource)) activeResources

def insertActiveResource (resource : Nat) (activeResources : List Nat) : List Nat :=
  let pos := findActiveResource resource activeResources
  if pos ≠ activeResources.length then activeResources.insertIdx pos resource
  else activeResources ++ [resource]

namespace Pool

def spareSize (pool : Pool) : Nat := max 1 (pool.poolSize / 10)

def isFull (pool : Pool) : Bool := decide (pool.inactiveResources.length ≤ pool.spareSize)

def neededSize (pool : Pool) : Nat :=
  sizeT (sizeT (pool.poolSize + pool.spareSize) - pool.inactiveResources.length)

def prepareResources (allocator : Nat → Nat) (pool : Pool) : Pool :=
  let inactiveResources := pool.inactiveResources ++
    (List.range pool.neededSize).map fun index => allocator (pool.allocations + index)
  { pool with
    inactiveResources
    allocations := pool.allocations + pool.neededSize
    callbacks := pool.callbacks ++ [.poolGrowing pool.neededSize,
      .poolGrowed pool.activeResources.length inactiveResources.length] }

def create (poolSize : Nat) (growable : Bool) : Pool := { poolSize, growable }

def initializePool (allocator : Nat → Nat) (pool : Pool) : Pool := pool.prepareResources allocator

def ready (allocator : Nat → Nat) (pool : Pool) : Pool :=
  if pool.isFull then pool.prepareResources allocator else pool

def acquire (allocator : Nat → Nat) (pool : Pool) : Acquired × Pool :=
  if pool.isFull && !pool.growable then
    (.null, pool)
  else
    match (pool.ready allocator).inactiveResources with
    | resource :: inactiveResources => (.resource resource, { pool.ready allocator with
        activeResources := insertActiveResource resource (pool.ready allocator).activeResources
        inactiveResources })
    | [] => (.badAlloc, pool.ready allocator)

/-- With the assertions off, a pointer that is not in use is ignored. -/
def release (resource : Nat) (pool : Pool) : Pool :=
  let pos := findActiveResource resource pool.activeResources
  if pool.activeResources[pos]? = some resource then
    { pool with
      activeResources := pool.activeResources.eraseIdx pos
      inactiveResources := pool.inactiveResources ++ [resource] }
  else
    pool

end Pool

section Search

variable {activeResources : List Nat}

theorem active_split (ascending : activeResources.Pairwise (· < ·)) (resource : Nat) :
    ∃ front back, Split (fun active => decide (active < resource)) activeResources front back := by
  apply exists_split
  apply ascending.imp
  intro earlier later smaller before
  simp only [decide_eq_true_eq] at before ⊢
  omega

theorem find_active_iff (ascending : activeResources.Pairwise (· < ·)) (resource : Nat) :
    activeResources[findActiveResource resource activeResources]? = some resource ↔
      resource ∈ activeResources := by
  rcases active_split ascending resource with ⟨front, back, parts⟩
  constructor
  · exact List.mem_of_getElem?
  · intro member
    rw [findActiveResource, at_lower_bound parts]
    rw [parts.whole] at member ascending
    rcases List.mem_append.mp member with inFront | inBack
    · have smaller := parts.passes resource inFront
      simp at smaller
    · cases back with
      | nil => cases inBack
      | cons first rest =>
          have least := (List.pairwise_cons.mp (List.pairwise_append.mp ascending).2.1).1
          have notSmaller := parts.fails first List.mem_cons_self
          rw [decide_eq_false_iff_not] at notSmaller
          rcases List.mem_cons.mp inBack with same | later
          · rw [same]
            rfl
          · exact absurd (least resource later) notSmaller

theorem insert_active_perm (ascending : activeResources.Pairwise (· < ·)) (resource : Nat) :
    (insertActiveResource resource activeResources).Perm (resource :: activeResources) := by
  rcases active_split ascending resource with ⟨front, back, parts⟩
  unfold insertActiveResource
  dsimp only
  split
  · rw [findActiveResource, insert_at_lower_bound parts, parts.whole]
    exact List.perm_middle
  · exact List.perm_append_singleton resource activeResources

theorem insert_active_ascending (ascending : activeResources.Pairwise (· < ·)) {resource : Nat}
    (absent : resource ∉ activeResources) :
    (insertActiveResource resource activeResources).Pairwise (· < ·) := by
  rcases active_split ascending resource with ⟨front, back, parts⟩
  have inserted : insertActiveResource resource activeResources = front ++ resource :: back := by
    unfold insertActiveResource
    dsimp only
    split
    · exact insert_at_lower_bound parts resource
    · rename_i atEnd
      rw [findActiveResource, lower_bound_eq parts, parts.whole, List.length_append] at atEnd
      have none : back = [] := List.length_eq_zero_iff.mp (by omega)
      rw [parts.whole, none, List.append_nil]
  rw [inserted]
  rw [parts.whole] at ascending absent
  apply pairwise_insert ascending
  · intro other inFront
    exact of_decide_eq_true (parts.passes other inFront)
  · intro other inBack
    have notSmaller := of_decide_eq_false (parts.fails other inBack)
    have different : other ≠ resource := by
      intro same
      rw [← same] at absent
      exact absent (List.mem_append_right front inBack)
    omega

theorem erase_active_perm {resource : Nat} {pos : Nat}
    (found : activeResources[pos]? = some resource) :
    (resource :: activeResources.eraseIdx pos).Perm activeResources := by
  rcases split_at found with ⟨earlier, later, whole, erased, _⟩
  rw [erased, whole]
  exact List.perm_middle.symm

end Search

/-- The resources are in use or not, in order and each once, and they are those that the
allocator gave out. -/
structure Conserved (allocator : Nat → Nat) (pool : Pool) : Prop where
  ascending : pool.activeResources.Pairwise (· < ·)
  separate : (pool.activeResources ++ pool.inactiveResources).Nodup
  exact : ∀ resource, resource ∈ pool.activeResources ++ pool.inactiveResources ↔
    ∃ index, index < pool.allocations ∧ allocator index = resource

namespace Conserved

variable {allocator : Nat → Nat} {pool : Pool}

theorem created (poolSize : Nat) (growable : Bool) :
    Conserved allocator (.create poolSize growable) where
  ascending := List.Pairwise.nil
  separate := List.nodup_nil
  exact resource := by
    constructor
    · intro member
      cases member
    · rintro ⟨index, none, _⟩
      cases none

theorem prepared (fresh : Function.Injective allocator) (conserved : Conserved allocator pool) :
    Conserved allocator (pool.prepareResources allocator) := by
  have member : ∀ resource, resource ∈ (List.range pool.neededSize).map
      (fun index => allocator (pool.allocations + index)) ↔
        ∃ index, pool.allocations ≤ index ∧ index < pool.allocations + pool.neededSize ∧
          allocator index = resource := by
    intro resource
    rw [List.mem_map]
    constructor
    · rintro ⟨offset, inside, rfl⟩
      have bound := List.mem_range.mp inside
      exact ⟨pool.allocations + offset, by omega, by omega, rfl⟩
    · rintro ⟨index, lower, upper, rfl⟩
      refine ⟨index - pool.allocations, List.mem_range.mpr (by omega), ?_⟩
      rw [Nat.add_sub_cancel' lower]
  constructor
  · exact conserved.ascending
  · change (pool.activeResources ++ (pool.inactiveResources ++ _)).Nodup
    rw [← List.append_assoc]
    apply List.Nodup.append conserved.separate
    · apply List.Nodup.map _ List.nodup_range
      intro first second same
      have indices := fresh same
      omega
    · intro resource old new
      rcases (conserved.exact resource).mp old with ⟨index, bound, given⟩
      rcases (member resource).mp new with ⟨other, lower, _, same⟩
      have indices := fresh (given.trans same.symm)
      omega
  · intro resource
    change resource ∈ pool.activeResources ++ (pool.inactiveResources ++ _) ↔
      ∃ index, index < pool.allocations + pool.neededSize ∧ allocator index = resource
    rw [← List.append_assoc, List.mem_append, conserved.exact, member]
    constructor
    · rintro (⟨index, bound, given⟩ | ⟨index, _, bound, given⟩)
      · exact ⟨index, by omega, given⟩
      · exact ⟨index, bound, given⟩
    · rintro ⟨index, bound, given⟩
      by_cases old : index < pool.allocations
      · exact Or.inl ⟨index, old, given⟩
      · exact Or.inr ⟨index, by omega, bound, given⟩

theorem ready (fresh : Function.Injective allocator) (conserved : Conserved allocator pool) :
    Conserved allocator (pool.ready allocator) := by
  unfold Pool.ready
  split
  · exact conserved.prepared fresh
  · exact conserved

theorem moved (conserved : Conserved allocator pool) {activeResources inactiveResources : List Nat}
    (ascending : activeResources.Pairwise (· < ·))
    (same : (activeResources ++ inactiveResources).Perm
      (pool.activeResources ++ pool.inactiveResources)) :
    Conserved allocator { pool with activeResources, inactiveResources } where
  ascending := ascending
  separate := same.nodup_iff.mpr conserved.separate
  exact resource := same.mem_iff.trans (conserved.exact resource)

theorem taken (conserved : Conserved allocator pool) {resource : Nat} {inactiveResources : List Nat}
    (first : pool.inactiveResources = resource :: inactiveResources) :
    resource ∉ pool.activeResources ∧ Conserved allocator { pool with
      activeResources := insertActiveResource resource pool.activeResources
      inactiveResources } := by
  have absent : resource ∉ pool.activeResources := by
    intro active
    apply List.disjoint_of_nodup_append conserved.separate active
    rw [first]
    exact List.mem_cons_self
  refine ⟨absent, conserved.moved (insert_active_ascending conserved.ascending absent) ?_⟩
  rw [first]
  exact ((insert_active_perm conserved.ascending resource).append_right inactiveResources).trans
    List.perm_middle.symm

theorem acquired (fresh : Function.Injective allocator) (conserved : Conserved allocator pool) :
    Conserved allocator (pool.acquire allocator).2 := by
  unfold Pool.acquire
  split
  · exact conserved
  · split
    · rename_i first
      exact ((conserved.ready fresh).taken first).2
    · exact conserved.ready fresh

theorem released (conserved : Conserved allocator pool) (resource : Nat) :
    Conserved allocator (pool.release resource) := by
  unfold Pool.release
  dsimp only
  split
  · rename_i found
    apply conserved.moved
    · exact conserved.ascending.sublist (List.eraseIdx_sublist _ _)
    · apply List.Perm.trans _ ((erase_active_perm found).append_right pool.inactiveResources)
      rw [← List.append_assoc]
      exact List.perm_append_singleton resource _
  · exact conserved

end Conserved

/-- A call on the pool; `release` may get any pointer. -/
inductive PoolCall where
  | acquire
  | release (resource : Nat)
  deriving DecidableEq, Repr

def Pool.call (allocator : Nat → Nat) (pool : Pool) : PoolCall → Pool
  | .acquire => (pool.acquire allocator).2
  | .release resource => pool.release resource

def Calls (allocator : Nat → Nat) (pool : Pool) (call : PoolCall) (next : Pool) : Prop :=
  next = pool.call allocator call

def Pool.start (allocator : Nat → Nat) (poolSize : Nat) (growable : Bool) : Pool :=
  (Pool.create poolSize growable).initializePool allocator

section Runs

variable {allocator : Nat → Nat} {pool : Pool}

theorem start_conserved (fresh : Function.Injective allocator) (poolSize : Nat) (growable : Bool) :
    Conserved allocator (.start allocator poolSize growable) :=
  (Conserved.created poolSize growable).prepared fresh

theorem call_conserved (fresh : Function.Injective allocator) (conserved : Conserved allocator pool)
    (call : PoolCall) : Conserved allocator (pool.call allocator call) := by
  cases call with
  | acquire => exact conserved.acquired fresh
  | release resource => exact conserved.released resource

theorem run_conserved (fresh : Function.Injective allocator) {first : Pool} {calls : List PoolCall}
    (conserved : Conserved allocator first) (run : Run (Calls allocator) first calls pool) :
    Conserved allocator pool := by
  apply run.invariant (fun _ pool => Conserved allocator pool) conserved
  rintro _ state call _ before rfl
  exact call_conserved fresh before call

theorem ready_active (pool : Pool) :
    (pool.ready allocator).activeResources = pool.activeResources := by
  unfold Pool.ready
  split
  · rfl
  · rfl

/-- A resource that `acquire` returns is the first of those not in use. -/
theorem acquire_returns {resource : Nat} {next : Pool}
    (acquired : pool.acquire allocator = (.resource resource, next)) :
    ∃ inactiveResources, (pool.ready allocator).inactiveResources = resource :: inactiveResources ∧
      next = { pool.ready allocator with
        activeResources := insertActiveResource resource (pool.ready allocator).activeResources
        inactiveResources } := by
  unfold Pool.acquire at acquired
  split at acquired
  · cases acquired
  · split at acquired
    · rename_i first
      cases acquired
      exact ⟨_, first, rfl⟩
    · cases acquired

theorem acquire_moves (fresh : Function.Injective allocator) (conserved : Conserved allocator pool)
    {resource : Nat} {next : Pool} (acquired : pool.acquire allocator = (.resource resource, next)) :
    resource ∈ (pool.ready allocator).inactiveResources ∧ resource ∉ pool.activeResources ∧
      resource ∉ next.inactiveResources ∧
      ∀ other, other ∈ next.activeResources ↔ other = resource ∨ other ∈ pool.activeResources := by
  rcases acquire_returns acquired with ⟨inactiveResources, first, rfl⟩
  have whole := conserved.ready fresh
  rcases whole.taken first with ⟨absent, after⟩
  rw [ready_active] at absent
  have inserted : ∀ other, other ∈ insertActiveResource resource (pool.ready allocator).activeResources ↔
      other = resource ∨ other ∈ pool.activeResources := by
    intro other
    rw [(insert_active_perm whole.ascending resource).mem_iff, List.mem_cons, ready_active]
  refine ⟨?_, absent, ?_, inserted⟩
  · rw [first]
    exact List.mem_cons_self
  · intro still
    exact List.disjoint_of_nodup_append after.separate ((inserted resource).mpr (Or.inl rfl)) still

theorem release_moves (conserved : Conserved allocator pool) {resource : Nat}
    (active : resource ∈ pool.activeResources) :
    (pool.release resource).inactiveResources = pool.inactiveResources ++ [resource] ∧
      ∀ other, other ∈ (pool.release resource).activeResources ↔
        other ∈ pool.activeResources ∧ other ≠ resource := by
  have found := (find_active_iff conserved.ascending resource).mpr active
  simp only [Pool.release, if_pos found]
  refine ⟨trivial, ?_⟩
  intro other
  have erased := erase_active_perm found
  have distinct := erased.nodup_iff.mpr conserved.separate.of_append_left
  rw [← erased.mem_iff, List.mem_cons]
  constructor
  · intro member
    refine ⟨Or.inr member, ?_⟩
    intro same
    rw [same] at member
    exact (List.nodup_cons.mp distinct).1 member
  · rintro ⟨member, different⟩
    exact member.resolve_left different

theorem release_ignores (conserved : Conserved allocator pool) {resource : Nat}
    (inactive : resource ∉ pool.activeResources) : pool.release resource = pool := by
  have missing : ¬pool.activeResources[findActiveResource resource pool.activeResources]? =
      some resource := by
    rw [find_active_iff conserved.ascending]
    exact inactive
  simp only [Pool.release, if_neg missing]

end Runs

/-- After any calls: the vector is strictly ascending, no pointer is there twice, and the pointers
are those that were allocated. A pointer that `acquire` returns was not in use and is then;
`release` of one in use gives it back, and of any other changes nothing. -/
theorem pool_conserves_resources {allocator : Nat → Nat} (fresh : Function.Injective allocator)
    {poolSize : Nat} {growable : Bool} {calls : List PoolCall} {pool : Pool}
    (run : Run (Calls allocator) (.start allocator poolSize growable) calls pool) :
    pool.activeResources.Pairwise (· < ·) ∧
    (pool.activeResources ++ pool.inactiveResources).Nodup ∧
    (∀ resource, resource ∈ pool.activeResources ++ pool.inactiveResources ↔
      ∃ index, index < pool.allocations ∧ allocator index = resource) ∧
    (∀ resource next, pool.acquire allocator = (.resource resource, next) →
      resource ∈ (pool.ready allocator).inactiveResources ∧ resource ∉ pool.activeResources ∧
      resource ∉ next.inactiveResources ∧
      ∀ other, other ∈ next.activeResources ↔ other = resource ∨ other ∈ pool.activeResources) ∧
    (∀ resource, resource ∈ pool.activeResources →
      resource ∈ (pool.release resource).inactiveResources ∧
      ∀ other, other ∈ (pool.release resource).activeResources ↔
        other ∈ pool.activeResources ∧ other ≠ resource) ∧
    ∀ resource, resource ∉ pool.activeResources → pool.release resource = pool := by
  have conserved := run_conserved fresh (start_conserved fresh poolSize growable) run
  refine ⟨conserved.ascending, conserved.separate, conserved.exact, ?_, ?_, ?_⟩
  · intro resource next acquired
    exact acquire_moves fresh conserved acquired
  · intro resource active
    rcases release_moves conserved active with ⟨appended, others⟩
    rw [appended]
    exact ⟨List.mem_append_right _ (List.mem_singleton_self resource), others⟩
  · intro resource inactive
    exact release_ignores conserved inactive

def swapped (index : Nat) : Nat := if index < 2 then 1 - index else index

theorem swapped_injective : Function.Injective swapped := by
  intro first second same
  unfold swapped at same
  split at same
  · split at same
    · omega
    · omega
  · split at same
    · omega
    · omega

theorem pool_conserves_resources_swapped :
    let pool := [PoolCall.acquire, .acquire, .release 1, .release 1, .release 7].foldl
      (Pool.call swapped) (.start swapped 1 true)
    (pool.activeResources ++ pool.inactiveResources).Nodup ∧ pool.activeResources = [0] := by
  intro pool
  have run : Run (Calls swapped) (.start swapped 1 true)
      ([] ++ [.acquire] ++ [.acquire] ++ [.release 1] ++ [.release 1] ++ [.release 7]) pool :=
    .next (.next (.next (.next (.next (.start _) rfl) rfl) rfl) rfl) rfl
  exact ⟨(pool_conserves_resources swapped_injective run).2.1, by decide⟩

end Sne.Base.PoolRuns
