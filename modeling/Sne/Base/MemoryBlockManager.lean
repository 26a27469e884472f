import Sne.Base.MemoryBlock
import Sne.Base.PoolCapacity

/-!
# Managers of memory blocks

`MemoryBlockManager.h`. Every manager has a pool of its own, but all pools share the one
static `MemoryBlockAllocator`, and constructing a manager sets the size of the blocks that
it makes from then on, for whomever. A pool grows when a block is asked for, long after it
was constructed.
-/

namespace Sne.Base.BlockManagers

open Sne.Base.PoolRuns Sne.Library.Runs

set_option autoImplicit false

/-- `initialBlockSize` is the argument of the constructor, which the source does not keep. -/
structure MemoryBlockManager where
  initialBlockSize : Nat
  pool : Pool
  deriving DecidableEq, Repr

structure Allocation where
  manager : Nat
  block : MemoryBlock
  deriving DecidableEq, Repr

/-- The static allocator, the managers in the order of their construction and all blocks. -/
structure Process where
  allocatorBlockSize : Nat := 0
  managers : List MemoryBlockManager := []
  allocated : List Allocation := []
  deriving DecidableEq, Repr

inductive ManagerCall where
  | construct (poolSize initialBlockSize : Nat)
  | acquire (manager : Nat)
  | release (manager resource : Nat)
  deriving DecidableEq, Repr

namespace Process

/-- `MemoryBlockAllocator::instance`. -/
def setInitialBlockSize (initialBlockSize : Nat) (process : Process) : Process :=
  { process with allocatorBlockSize := initialBlockSize }

def mallocBlocks (manager count : Nat) (process : Process) : Process :=
  { process with
    allocated := process.allocated ++
      List.replicate count { manager, block := MemoryBlock.create process.allocatorBlockSize } }

/-- `pointers` are the addresses that a manager's pool gets, one after another. -/
def construct (pointers : Nat → Nat → Nat) (poolSize initialBlockSize : Nat) (process : Process) :
    Process :=
  let process := process.setInitialBlockSize initialBlockSize
  let pool := Pool.start (pointers process.managers.length) poolSize true
  let process := process.mallocBlocks process.managers.length pool.allocations
  { process with managers := process.managers ++ [{ initialBlockSize, pool }] }

def acquire (pointers : Nat → Nat → Nat) (manager : Nat) (process : Process) : Process :=
  match process.managers[manager]? with
  | some owner =>
      let pool := (owner.pool.acquire (pointers manager)).2
      let process := process.mallocBlocks manager (pool.allocations - owner.pool.allocations)
      { process with managers := process.managers.set manager { owner with pool } }
  | none => process

def release (manager resource : Nat) (process : Process) : Process :=
  match process.managers[manager]? with
  | some owner =>
      { process with
        managers := process.managers.set manager { owner with pool := owner.pool.release resource } }
  | none => process

def call (pointers : Nat → Nat → Nat) (process : Process) : ManagerCall → Process
  | .construct poolSize initialBlockSize => process.construct pointers poolSize initialBlockSize
  | .acquire manager => process.acquire pointers manager
  | .release manager resource => process.release manager resource

end Process

def Makes (pointers : Nat → Nat → Nat) (process : Process) (call : ManagerCall) (next : Process) :
    Prop :=
  next = process.call pointers call

/-- Every block has the size of the manager that it belongs to. -/
def OwnSizes (process : Process) : Prop :=
  ∀ allocation ∈ process.allocated, ∃ owner, process.managers[allocation.manager]? = some owner ∧
    allocation.block.capacity = owner.initialBlockSize

/-- A pool that is to grow belongs to a manager of the size that was constructed last. -/
def GrowsAtLastSize (process : Process) (call : ManagerCall) : Prop :=
  ∀ manager owner, call = .acquire manager → process.managers[manager]? = some owner →
    owner.pool.isFull = true → owner.pool.neededSize ≠ 0 →
      process.managers.getLast?.map MemoryBlockManager.initialBlockSize = some owner.initialBlockSize

/-- What holds in every run: the allocator has the size of the last manager, and all pools grow. -/
structure Shared (process : Process) : Prop where
  latest : ∀ last, process.managers.getLast? = some last →
    process.allocatorBlockSize = last.initialBlockSize
  growing : ∀ owner ∈ process.managers, owner.pool.growable = true
  owned : ∀ allocation ∈ process.allocated, allocation.manager < process.managers.length

theorem create_capacity (initialSize : Nat) :
    (MemoryBlock.create initialSize).capacity = initialSize := by
  simp [MemoryBlock.create, MemoryBlock.size, MemoryBlock.capacity]

/-- A pool that grows gets as many blocks as are needed, when it is full. -/
theorem acquire_allocations {allocator : Nat → Nat} {pool : Pool} (grows : pool.growable = true) :
    (pool.acquire allocator).2.allocations =
      pool.allocations + if pool.isFull then pool.neededSize else 0 := by
  have ready : (pool.ready allocator).allocations =
      pool.allocations + if pool.isFull then pool.neededSize else 0 := by
    unfold Pool.ready
    split
    · rfl
    · rfl
  have goesOn : ¬(pool.isFull && !pool.growable) = true := by
    rw [grows, Bool.not_true, Bool.and_false]
    exact Bool.false_ne_true
  simp only [Pool.acquire, if_neg goesOn]
  split
  · exact ready
  · exact ready

def Process.ownSize (manager : Nat) (process : Process) : Option Nat :=
  process.managers[manager]?.map MemoryBlockManager.initialBlockSize

theorem own_sizes_iff {process : Process} :
    OwnSizes process ↔ ∀ allocation ∈ process.allocated,
      process.ownSize allocation.manager = some allocation.block.capacity := by
  apply forall₂_congr
  intro allocation _
  rw [Process.ownSize, Option.map_eq_some_iff]
  simp only [eq_comm]

section Set

variable {managers : List MemoryBlockManager} {manager : Nat} {owner : MemoryBlockManager}

theorem set_own_size (found : managers[manager]? = some owner) (pool : Pool) (index : Nat) :
    (managers.set manager { owner with pool })[index]?.map MemoryBlockManager.initialBlockSize =
      managers[index]?.map MemoryBlockManager.initialBlockSize := by
  rcases set_at found with ⟨earlier, later, whole, replaced⟩
  rw [replaced, whole, ← List.getElem?_map, ← List.getElem?_map, List.map_append, List.map_append,
    List.map_cons, List.map_cons]

theorem set_last_size (found : managers[manager]? = some owner) (pool : Pool) :
    (managers.set manager { owner with pool }).getLast?.map MemoryBlockManager.initialBlockSize =
      managers.getLast?.map MemoryBlockManager.initialBlockSize := by
  rw [List.getLast?_eq_getElem?, List.getLast?_eq_getElem?, List.length_set]
  exact set_own_size found pool _

end Set

namespace Shared

variable {process : Process}

theorem initially : Shared {} where
  latest := by
    intro last found
    cases found
  growing := by
    intro owner member
    cases member
  owned := by
    intro allocation member
    cases member

theorem latest_size (shared : Shared process) {size : Nat}
    (found : process.managers.getLast?.map MemoryBlockManager.initialBlockSize = some size) :
    process.allocatorBlockSize = size := by
  rcases Option.map_eq_some_iff.mp found with ⟨last, isLast, rfl⟩
  exact shared.latest last isLast

theorem changed (shared : Shared process) {manager : Nat} {owner : MemoryBlockManager}
    (found : process.managers[manager]? = some owner) {pool : Pool} (grows : pool.growable = true)
    (count : Nat) :
    Shared { process.mallocBlocks manager count with
      managers := process.managers.set manager { owner with pool } } where
  latest last isLast := by
    have same := set_last_size found pool
    apply shared.latest_size
    rw [← same]
    exact congrArg (Option.map MemoryBlockManager.initialBlockSize) isLast
  growing other member := by
    rcases List.mem_or_eq_of_mem_set member with before | rfl
    · exact shared.growing other before
    · exact grows
  owned allocation member := by
    change allocation.manager < (process.managers.set manager _).length
    rw [List.length_set]
    rcases List.mem_append.mp member with before | new
    · exact shared.owned allocation before
    · rw [List.eq_of_mem_replicate new]
      exact (List.getElem?_eq_some_iff.mp found).1

theorem constructed (shared : Shared process) (pointers : Nat → Nat → Nat)
    (poolSize initialBlockSize : Nat) :
    Shared (process.construct pointers poolSize initialBlockSize) where
  latest last isLast := by
    rw [Process.construct, List.getLast?_concat] at isLast
    cases isLast
    rfl
  growing owner member := by
    rcases List.mem_append.mp member with before | new
    · exact shared.growing owner before
    · rw [List.mem_singleton.mp new]
      rfl
  owned allocation member := by
    rw [Process.construct, List.length_append, List.length_singleton]
    rcases List.mem_append.mp member with before | new
    · exact Nat.lt_succ_of_lt (shared.owned allocation before)
    · rw [List.eq_of_mem_replicate new]
      exact Nat.lt_succ_self _

theorem call (shared : Shared process) (pointers : Nat → Nat → Nat) (made : ManagerCall) :
    Shared (process.call pointers made) := by
  cases made with
  | construct poolSize initialBlockSize =>
      exact shared.constructed pointers poolSize initialBlockSize
  | acquire manager =>
      simp only [Process.call, Process.acquire]
      split
      · rename_i owner found
        apply shared.changed found
        exact (call_sizes .acquire).2.trans (shared.growing owner (List.mem_of_getElem? found))
      · exact shared
  | release manager resource =>
      simp only [Process.call, Process.release]
      split
      · rename_i owner found
        have kind : (owner.pool.call id (.release resource)).growable = owner.pool.growable :=
          (call_sizes (.release resource)).2
        have grows := kind.trans (shared.growing owner (List.mem_of_getElem? found))
        have kept := shared.changed found grows 0
        rw [Process.mallocBlocks, List.replicate_zero, List.append_nil] at kept
        exact kept
      · exact shared

end Shared

section Step

variable {process : Process}

/-- The blocks that a manager gets are of its size when the allocator has that size. -/
theorem malloc_own_sizes {next : Process} {manager count : Nat}
    (allocated : next.allocated = (process.mallocBlocks manager count).allocated)
    (sizes : ∀ allocation ∈ process.allocated,
      next.ownSize allocation.manager = process.ownSize allocation.manager) :
    OwnSizes next ↔ OwnSizes process ∧
      (count ≠ 0 → next.ownSize manager = some process.allocatorBlockSize) := by
  rw [own_sizes_iff, own_sizes_iff, allocated]
  constructor
  · intro all
    constructor
    · intro allocation member
      rw [← sizes allocation member]
      exact all allocation (List.mem_append_left _ member)
    · intro some
      have own := all _ (List.mem_append_right process.allocated (List.mem_replicate.mpr ⟨some, rfl⟩))
      rw [create_capacity] at own
      exact own
  · rintro ⟨before, new⟩ allocation member
    rcases List.mem_append.mp member with old | made
    · rw [sizes allocation old]
      exact before allocation old
    · rcases List.mem_replicate.mp made with ⟨some, rfl⟩
      rw [create_capacity]
      exact new some

theorem construct_managers (pointers : Nat → Nat → Nat) (poolSize initialBlockSize : Nat) :
    (process.construct pointers poolSize initialBlockSize).managers = process.managers ++
      [⟨initialBlockSize, .start (pointers process.managers.length) poolSize true⟩] := rfl

theorem construct_own_sizes (shared : Shared process) (pointers : Nat → Nat → Nat)
    (poolSize initialBlockSize : Nat) :
    OwnSizes (process.construct pointers poolSize initialBlockSize) ↔ OwnSizes process := by
  have allocated : (process.construct pointers poolSize initialBlockSize).allocated =
      ((process.setInitialBlockSize initialBlockSize).mallocBlocks process.managers.length
        (Pool.start (pointers process.managers.length) poolSize true).allocations).allocated := rfl
  have sizes : ∀ allocation ∈ process.allocated,
      (process.construct pointers poolSize initialBlockSize).ownSize allocation.manager =
        process.ownSize allocation.manager := by
    intro allocation member
    rw [Process.ownSize, construct_managers,
      List.getElem?_append_left (shared.owned allocation member), Process.ownSize]
  have new : (process.construct pointers poolSize initialBlockSize).ownSize process.managers.length =
      some initialBlockSize := by
    rw [Process.ownSize, construct_managers, List.getElem?_concat_length, Option.map_some]
  rw [malloc_own_sizes allocated sizes]
  constructor
  · intro both
    exact both.1
  · intro before
    exact ⟨before, fun _ => new⟩

theorem grows_at_last_size_iff {manager : Nat} {owner : MemoryBlockManager}
    (found : process.managers[manager]? = some owner) :
    GrowsAtLastSize process (.acquire manager) ↔
      (owner.pool.isFull = true → owner.pool.neededSize ≠ 0 →
        process.managers.getLast?.map MemoryBlockManager.initialBlockSize =
          some owner.initialBlockSize) := by
  constructor
  · intro condition
    exact condition manager owner rfl found
  · intro condition index other same foundOther
    cases same
    cases found.symm.trans foundOther
    exact condition

theorem acquire_own_sizes (shared : Shared process) (pointers : Nat → Nat → Nat) {manager : Nat}
    {owner : MemoryBlockManager} (found : process.managers[manager]? = some owner) :
    OwnSizes (process.acquire pointers manager) ↔
      OwnSizes process ∧ GrowsAtLastSize process (.acquire manager) := by
  have grows := shared.growing owner (List.mem_of_getElem? found)
  have sizes : ∀ index, (process.acquire pointers manager).ownSize index = process.ownSize index := by
    intro index
    simp only [Process.acquire, found, Process.ownSize]
    exact set_own_size found _ index
  have allocated : (process.acquire pointers manager).allocated = (process.mallocBlocks manager
      (if owner.pool.isFull then owner.pool.neededSize else 0)).allocated := by
    simp only [Process.acquire, found, acquire_allocations grows, Nat.add_sub_cancel_left]
  have own : process.ownSize manager = some owner.initialBlockSize := by
    rw [Process.ownSize, found, Option.map_some]
  have isLast := List.getLast?_eq_some_getLast (List.ne_nil_of_mem (List.mem_of_getElem? found))
  rw [malloc_own_sizes allocated (fun allocation _ => sizes allocation.manager),
    grows_at_last_size_iff found, sizes, own, shared.latest _ isLast, isLast]
  apply and_congr_right
  intro _
  rw [Option.map_some, eq_comm (a := some owner.initialBlockSize)]
  split
  · rename_i full
    exact ⟨fun needed _ => needed, fun needed => needed full⟩
  · rename_i notFull
    exact ⟨fun _ full => absurd full notFull, fun _ none => absurd rfl none⟩

/-- A call keeps all blocks right unless it grows a pool at the size of another manager. -/
theorem call_own_sizes (shared : Shared process) (pointers : Nat → Nat → Nat) (call : ManagerCall) :
    OwnSizes (process.call pointers call) ↔ OwnSizes process ∧ GrowsAtLastSize process call := by
  have other : ∀ {call : ManagerCall}, (∀ manager owner, call = .acquire manager →
      process.managers[manager]? ≠ some owner) → GrowsAtLastSize process call := by
    intro call never manager owner acquires found
    exact absurd found (never manager owner acquires)
  cases call with
  | construct poolSize initialBlockSize =>
      rw [Process.call, construct_own_sizes shared, and_iff_left]
      apply other
      intro manager owner acquires
      cases acquires
  | acquire manager =>
      cases found : process.managers[manager]? with
      | some owner => exact acquire_own_sizes shared pointers found
      | none =>
          simp only [Process.call, Process.acquire, found]
          rw [and_iff_left]
          apply other
          intro index owner acquires
          cases acquires
          rw [found]
          intro impossible
          cases impossible
  | release manager resource =>
      rw [and_iff_left]
      · simp only [Process.call, Process.release]
        split
        · rename_i owner found
          simp only [own_sizes_iff, Process.ownSize, set_own_size found]
        · rfl
      · apply other
        intro index owner acquires
        cases acquires

end Step

/-- Every block has the size of its own manager exactly in the runs in which a full pool asks
for blocks only while the manager that was constructed last has the same size. -/
theorem managers_independent_iff (pointers : Nat → Nat → Nat) {calls : List ManagerCall}
    {process : Process} (run : Run (Makes pointers) {} calls process) :
    OwnSizes process ↔ Run (Where (Makes pointers) GrowsAtLastSize) {} calls process := by
  apply run.safe_iff Shared OwnSizes GrowsAtLastSize Shared.initially
  · intro allocation member
    cases member
  · rintro state call _ shared rfl
    exact shared.call pointers call
  · rintro state call _ shared rfl
    exact call_own_sizes shared pointers call

def growingAfterAnother : List ManagerCall :=
  [.construct 1 16, .construct 1 4, .acquire 0, .acquire 0]

theorem managers_independent_growing : ∃ process,
    Run (Makes fun manager index => 10 * manager + index) {} [.construct 1 16, .acquire 0, .acquire 0]
      process ∧ process.allocated.length = 3 ∧
      (OwnSizes process ↔ Run (Where (Makes fun manager index => 10 * manager + index) GrowsAtLastSize)
        {} [.construct 1 16, .acquire 0, .acquire 0] process) := by
  have run : Run (Makes fun manager index => 10 * manager + index) {}
      [.construct 1 16, .acquire 0, .acquire 0] _ :=
    .cons rfl (.cons rfl (.cons rfl (.start _)))
  exact ⟨_, run, by decide, managers_independent_iff _ run⟩

/-- The first manager gets a block of the second one's size. -/
theorem manager_grows_at_other_size : ∃ process,
    Run (Makes fun manager index => 10 * manager + index) {} growingAfterAnother process ∧
      (∃ allocation ∈ process.allocated, allocation.manager = 0 ∧ allocation.block.capacity = 4) ∧
      process.ownSize 0 = some 16 ∧ ¬OwnSizes process := by
  have run : Run (Makes fun manager index => 10 * manager + index) {} growingAfterAnother _ :=
    .cons rfl (.cons rfl (.cons rfl (.cons rfl (.start _))))
  refine ⟨_, run, by decide, by decide, ?_⟩
  rw [own_sizes_iff]
  decide

end Sne.Base.BlockManagers
