import Sne.Base.MemoryPool
import Sne.Base.PoolRuns

/-!
# The capacity of a resource pool

The pool keeps a reserve on top of its size and calls itself full when only the reserve is
left. The counts come out right as long as the size and the reserve together are a
64-bit number; beyond that their sum wraps to less than the reserve, and the pool is full
from the start.
-/

namespace Sne.Base.PoolRuns

open Sne.Library.ByteMemory Sne.Library.Runs

set_option autoImplicit false

namespace Pool

/-- The sum of `poolSize_` and `spareSize_` as it is computed. -/
def targetSize (pool : Pool) : Nat := sizeT (pool.poolSize + pool.spareSize)

def Underflows (pool : Pool) : Prop := pool.targetSize < pool.inactiveResources.length

/-- Only resources in use are released. -/
def Held (pool : Pool) (call : PoolCall) : Prop :=
  ∀ resource, call = .release resource → resource ∈ pool.activeResources

theorem spare_positive (pool : Pool) : 0 < pool.spareSize :=
  Nat.lt_of_lt_of_le Nat.zero_lt_one (Nat.le_max_left 1 _)

theorem is_full_iff (pool : Pool) :
    pool.isFull = true ↔ pool.inactiveResources.length ≤ pool.spareSize :=
  decide_eq_true_iff

theorem target_exact (pool : Pool) (fits : pool.poolSize + pool.spareSize < 18446744073709551616) :
    pool.targetSize = pool.poolSize + pool.spareSize := by
  rw [targetSize]
  exact size_t_sum fits

theorem target_wraps (pool : Pool) (sized : pool.poolSize < 18446744073709551616)
    (wraps : ¬pool.poolSize + pool.spareSize < 18446744073709551616) :
    pool.targetSize < pool.spareSize := by
  have spare : pool.spareSize ≤ 1 + pool.poolSize / 10 := by
    unfold spareSize
    omega
  unfold targetSize sizeT
  omega

theorem needed_exact (pool : Pool) (enough : ¬pool.Underflows) :
    pool.neededSize + pool.inactiveResources.length = pool.targetSize := by
  have bound : pool.targetSize < 18446744073709551616 := by
    unfold targetSize sizeT
    omega
  unfold Underflows at enough
  have lower : (0 : Int) ≤ pool.targetSize - pool.inactiveResources.length := by omega
  have upper : (pool.targetSize - pool.inactiveResources.length : Int) < 18446744073709551616 := by
    omega
  have exact : (pool.neededSize : Int) = pool.targetSize - pool.inactiveResources.length :=
    size_t_exact lower upper
  omega

theorem prepare_inactive_length (allocator : Nat → Nat) (pool : Pool) :
    (pool.prepareResources allocator).inactiveResources.length =
      pool.inactiveResources.length + pool.neededSize := by
  simp only [prepareResources, List.length_append, List.length_map, List.length_range]

end Pool

section Counts

variable {allocator : Nat → Nat} {pool : Pool}

theorem ready_full (full : pool.isFull = true) (enough : ¬pool.Underflows) :
    (pool.ready allocator).inactiveResources.length = pool.targetSize := by
  rw [Pool.ready, if_pos full, Pool.prepare_inactive_length, ← pool.needed_exact enough, Nat.add_comm]

theorem ready_not_full (notFull : ¬pool.isFull = true) : pool.ready allocator = pool := by
  rw [Pool.ready, if_neg notFull]

theorem call_sizes (call : PoolCall) :
    (pool.call allocator call).poolSize = pool.poolSize ∧
      (pool.call allocator call).growable = pool.growable := by
  have readySizes : (pool.ready allocator).poolSize = pool.poolSize ∧
      (pool.ready allocator).growable = pool.growable := by
    unfold Pool.ready
    split
    · exact ⟨rfl, rfl⟩
    · exact ⟨rfl, rfl⟩
  cases call with
  | acquire =>
      simp only [Pool.call, Pool.acquire]
      split
      · exact ⟨rfl, rfl⟩
      · split
        · exact readySizes
        · exact readySizes
  | release resource =>
      simp only [Pool.call, Pool.release]
      split
      · exact ⟨rfl, rfl⟩
      · exact ⟨rfl, rfl⟩

theorem run_sizes {first : Pool} {calls : List PoolCall}
    (run : Run (Where (Calls allocator) Pool.Held) first calls pool) :
    pool.poolSize = first.poolSize ∧ pool.growable = first.growable := by
  apply run.invariant (fun _ pool => pool.poolSize = first.poolSize ∧ pool.growable = first.growable)
    ⟨rfl, rfl⟩
  rintro _ state call _ ⟨size, grows⟩ ⟨rfl, _⟩
  rw [(call_sizes call).1, (call_sizes call).2]
  exact ⟨size, grows⟩

theorem acquire_lengths (fresh : Function.Injective allocator) (conserved : Conserved allocator pool)
    {resource : Nat} {next : Pool} (acquired : pool.acquire allocator = (.resource resource, next)) :
    next.activeResources.length = pool.activeResources.length + 1 ∧
      next.inactiveResources.length + 1 = (pool.ready allocator).inactiveResources.length := by
  rcases acquire_returns acquired with ⟨inactiveResources, first, rfl⟩
  have inserted := insert_active_perm (conserved.ready fresh).ascending resource
  constructor
  · rw [inserted.length_eq, List.length_cons, ready_active]
  · rw [first, List.length_cons]

theorem release_lengths (conserved : Conserved allocator pool) {resource : Nat}
    (active : resource ∈ pool.activeResources) :
    (pool.release resource).activeResources.length + 1 = pool.activeResources.length ∧
      (pool.release resource).inactiveResources.length = pool.inactiveResources.length + 1 := by
  have found := (find_active_iff conserved.ascending resource).mpr active
  have erased := erase_active_perm found
  simp only [Pool.release, if_pos found]
  constructor
  · rw [← erased.length_eq, List.length_cons]
  · rw [List.length_append, List.length_singleton]

/-- A pool that grows, or is not full, has a resource to give. -/
theorem acquire_succeeds (gives : pool.growable = true ∨ ¬pool.isFull = true)
    (some : (pool.ready allocator).inactiveResources ≠ []) :
    ∃ resource next, pool.acquire allocator = (.resource resource, next) := by
  have goesOn : ¬(pool.isFull && !pool.growable) = true := by
    rw [Bool.and_eq_true, Bool.not_eq_true']
    rintro ⟨full, fixed⟩
    rcases gives with grows | notFull
    · rw [fixed] at grows
      cases grows
    · exact notFull full
  rcases List.exists_cons_of_ne_nil some with ⟨resource, inactiveResources, first⟩
  simp only [Pool.acquire, if_neg goesOn, first]
  exact ⟨_, _, rfl⟩

theorem acquire_null_iff :
    (pool.acquire allocator).1 = .null ↔ pool.isFull = true ∧ pool.growable = false := by
  by_cases refused : (pool.isFull && !pool.growable) = true
  · rw [Pool.acquire, if_pos refused]
    rw [Bool.and_eq_true, Bool.not_eq_true'] at refused
    exact iff_of_true rfl refused
  · have given : (pool.acquire allocator).1 ≠ .null := by
      rw [Pool.acquire, if_neg refused]
      split
      · simp
      · simp
    rw [Bool.and_eq_true, Bool.not_eq_true'] at refused
    exact iff_of_false given refused

end Counts

/-- In a growable pool `acquire` always returns a resource, and nothing is subtracted that is
larger than the sum. -/
def GrowingKept (allocator : Nat → Nat) (poolSize : Nat) : Prop :=
  ∀ calls pool, Run (Where (Calls allocator) Pool.Held) (.start allocator poolSize true) calls pool →
    (∃ resource, (pool.acquire allocator).1 = .resource resource) ∧
    (pool.isFull = true → ¬pool.Underflows)

/-- A pool that does not grow refuses exactly when `poolSize` resources are in use. -/
def FixedKept (allocator : Nat → Nat) (poolSize : Nat) : Prop :=
  ∀ calls pool, Run (Where (Calls allocator) Pool.Held) (.start allocator poolSize false) calls pool →
    ((pool.acquire allocator).1 = .null ↔ pool.activeResources.length = poolSize) ∧
    pool.activeResources.length ≤ poolSize

section Kept

variable {allocator : Nat → Nat} {poolSize : Nat}

theorem start_lengths (allocator : Nat → Nat) (poolSize : Nat) (growable : Bool) :
    (Pool.start allocator poolSize growable).activeResources = [] ∧
      (Pool.start allocator poolSize growable).inactiveResources.length =
        (Pool.start allocator poolSize growable).targetSize := by
  refine ⟨rfl, ?_⟩
  have enough : ¬(Pool.create poolSize growable).Underflows := Nat.not_lt_zero _
  have needed := Pool.needed_exact _ enough
  change ((Pool.create poolSize growable).prepareResources allocator).inactiveResources.length =
    (Pool.create poolSize growable).targetSize
  rw [Pool.prepare_inactive_length]
  omega

theorem held_conserved (fresh : Function.Injective allocator) {growable : Bool} {calls : List PoolCall}
    {pool : Pool} (run : Run (Where (Calls allocator) Pool.Held) (.start allocator poolSize growable)
      calls pool) : Conserved allocator pool :=
  run_conserved fresh (start_conserved fresh poolSize growable) run.unconditional

/-- When the sum fits, a full pool has less than the sum. -/
theorem growing_kept {pool : Pool} (grows : pool.growable = true)
    (fits : pool.poolSize + pool.spareSize < 18446744073709551616) :
    (∃ resource, (pool.acquire allocator).1 = .resource resource) ∧
      (pool.isFull = true → ¬pool.Underflows) := by
  have target := pool.target_exact fits
  have spare := pool.spare_positive
  have noUnderflow : pool.isFull = true → ¬pool.Underflows := by
    intro full
    rw [Pool.is_full_iff] at full
    unfold Pool.Underflows
    omega
  refine ⟨?_, noUnderflow⟩
  have some : (pool.ready allocator).inactiveResources ≠ [] := by
    rw [← List.length_pos_iff]
    by_cases full : pool.isFull = true
    · rw [ready_full full (noUnderflow full)]
      omega
    · rw [ready_not_full full]
      rw [Pool.is_full_iff] at full
      omega
  rcases acquire_succeeds (Or.inl grows) some with ⟨resource, next, acquired⟩
  exact ⟨resource, congrArg Prod.fst acquired⟩

/-- A pool that does not grow keeps all the resources it began with. -/
structure Balanced (allocator : Nat → Nat) (pool : Pool) : Prop where
  conserved : Conserved allocator pool
  fixed : pool.growable = false
  balance : pool.activeResources.length + pool.inactiveResources.length = pool.poolSize + pool.spareSize
  bounded : pool.activeResources.length ≤ pool.poolSize

theorem start_balanced (fresh : Function.Injective allocator)
    (fits : poolSize + max 1 (poolSize / 10) < 18446744073709551616) :
    Balanced allocator (.start allocator poolSize false) := by
  have lengths := start_lengths allocator poolSize false
  have target := Pool.target_exact (Pool.start allocator poolSize false) fits
  constructor
  · exact start_conserved fresh poolSize false
  · rfl
  · rw [lengths.1, lengths.2, target, List.length_nil, Nat.zero_add]
  · exact Nat.zero_le _

theorem acquire_balanced (fresh : Function.Injective allocator) {pool : Pool}
    (balanced : Balanced allocator pool) : Balanced allocator (pool.acquire allocator).2 := by
  have balance := balanced.balance
  by_cases full : pool.isFull = true
  · have refused : pool.acquire allocator = (.null, pool) := by
      rw [Pool.acquire, full, balanced.fixed]
      rfl
    rw [refused]
    exact balanced
  · have spare := pool.spare_positive
    have more := full
    rw [Pool.is_full_iff] at more
    have some : (pool.ready allocator).inactiveResources ≠ [] := by
      rw [← List.length_pos_iff, ready_not_full full]
      omega
    rcases acquire_succeeds (Or.inr full) some with ⟨resource, next, acquired⟩
    have lengths := acquire_lengths fresh balanced.conserved acquired
    rw [ready_not_full full] at lengths
    have conserved := balanced.conserved.acquired fresh
    have sizes : (pool.call allocator .acquire).poolSize = pool.poolSize ∧
        (pool.call allocator .acquire).growable = pool.growable := call_sizes .acquire
    change (pool.acquire allocator).2.poolSize = _ ∧ (pool.acquire allocator).2.growable = _ at sizes
    rw [acquired] at conserved sizes ⊢
    dsimp only at conserved sizes ⊢
    have spares : next.spareSize = pool.spareSize := by
      unfold Pool.spareSize
      rw [sizes.1]
    refine ⟨conserved, sizes.2.trans balanced.fixed, ?_, ?_⟩
    · rw [sizes.1, spares]
      omega
    · rw [sizes.1]
      omega

theorem release_balanced {pool : Pool} (balanced : Balanced allocator pool) {resource : Nat}
    (active : resource ∈ pool.activeResources) : Balanced allocator (pool.release resource) := by
  have balance := balanced.balance
  have bounded := balanced.bounded
  have lengths := release_lengths balanced.conserved active
  have sizes : (pool.call allocator (.release resource)).poolSize = pool.poolSize ∧
      (pool.call allocator (.release resource)).growable = pool.growable := call_sizes (.release resource)
  change (pool.release resource).poolSize = _ ∧ (pool.release resource).growable = _ at sizes
  have spares : (pool.release resource).spareSize = pool.spareSize := by
    unfold Pool.spareSize
    rw [sizes.1]
  refine ⟨balanced.conserved.released resource, sizes.2.trans balanced.fixed, ?_, ?_⟩
  · rw [sizes.1, spares]
    omega
  · rw [sizes.1]
    omega

theorem fixed_kept (fresh : Function.Injective allocator)
    (fits : poolSize + max 1 (poolSize / 10) < 18446744073709551616) : FixedKept allocator poolSize := by
  intro calls pool run
  have balanced : Balanced allocator pool := by
    apply run.invariant (fun _ pool => Balanced allocator pool) (start_balanced fresh fits)
    rintro _ state call _ before ⟨rfl, held⟩
    cases call with
    | acquire => exact acquire_balanced fresh before
    | release resource => exact release_balanced before (held resource rfl)
  have size : pool.poolSize = poolSize := (run_sizes run).1
  have balance := balanced.balance
  have bounded := balanced.bounded
  rw [acquire_null_iff, Pool.is_full_iff, balanced.fixed]
  rw [size] at balance bounded
  refine ⟨?_, bounded⟩
  constructor
  · rintro ⟨full, _⟩
    omega
  · intro whole
    exact ⟨by omega, rfl⟩

/-- When the sum wraps, a fixed pool refuses the first resource. -/
theorem fixed_wraps (sized : poolSize < 18446744073709551616)
    (wraps : ¬poolSize + max 1 (poolSize / 10) < 18446744073709551616) :
    ¬FixedKept allocator poolSize := by
  intro kept
  have lengths := start_lengths allocator poolSize false
  have target := Pool.target_wraps (Pool.start allocator poolSize false) sized wraps
  have first := (kept [] _ (.start _)).1
  rw [acquire_null_iff, Pool.is_full_iff, lengths.1, lengths.2, List.length_nil] at first
  have none := first.mp ⟨by omega, rfl⟩
  omega

theorem acquire_step {pool : Pool} {resource : Nat}
    (acquired : (pool.acquire allocator).1 = .resource resource) :
    ∃ next, pool.acquire allocator = (.resource resource, next) ∧
      Where (Calls allocator) Pool.Held pool .acquire next := by
  refine ⟨(pool.acquire allocator).2, ?_, rfl, ?_⟩
  · rw [← acquired]
  · intro other release
    cases release

theorem release_step {pool : Pool} {resource : Nat} (active : resource ∈ pool.activeResources) :
    Where (Calls allocator) Pool.Held pool (.release resource) (pool.release resource) := by
  refine ⟨rfl, ?_⟩
  intro other same
  cases same
  exact active

theorem run_target {growable : Bool} {calls : List PoolCall} {pool : Pool}
    (run : Run (Where (Calls allocator) Pool.Held) (.start allocator poolSize growable) calls pool) :
    pool.targetSize = (Pool.start allocator poolSize growable).targetSize := by
  have size : pool.poolSize = poolSize := (run_sizes run).1
  unfold Pool.targetSize Pool.spareSize
  rw [size]
  rfl

theorem run_target_wraps {growable : Bool} {calls : List PoolCall} {pool : Pool}
    (run : Run (Where (Calls allocator) Pool.Held) (.start allocator poolSize growable) calls pool)
    (sized : poolSize < 18446744073709551616)
    (wraps : ¬poolSize + max 1 (poolSize / 10) < 18446744073709551616) :
    pool.targetSize < pool.spareSize := by
  have size : pool.poolSize = poolSize := (run_sizes run).1
  apply Pool.target_wraps pool (by omega)
  unfold Pool.spareSize
  rw [size]
  exact wraps

/-- A pool with at most the sum is full and is filled up to the sum, before one is taken. -/
theorem full_pool_gives (fresh : Function.Injective allocator)
    (sized : poolSize < 18446744073709551616)
    (wraps : ¬poolSize + max 1 (poolSize / 10) < 18446744073709551616)
    (kept : GrowingKept allocator poolSize) {calls : List PoolCall} {pool : Pool}
    (run : Run (Where (Calls allocator) Pool.Held) (.start allocator poolSize true) calls pool)
    (few : pool.inactiveResources.length ≤ pool.targetSize) :
    ∃ next, Where (Calls allocator) Pool.Held pool .acquire next ∧
      next.activeResources.length = pool.activeResources.length + 1 ∧
      next.inactiveResources.length + 1 = pool.targetSize := by
  have full : pool.isFull = true := by
    have smaller := run_target_wraps run sized wraps
    rw [Pool.is_full_iff]
    omega
  rcases (kept calls pool run).1 with ⟨resource, given⟩
  rcases acquire_step given with ⟨next, acquired, step⟩
  have lengths := acquire_lengths fresh (held_conserved fresh run) acquired
  rw [ready_full full (Nat.not_lt.mpr few)] at lengths
  exact ⟨next, step, lengths⟩

theorem some_released (fresh : Function.Injective allocator) {growable : Bool} {calls : List PoolCall}
    {pool : Pool}
    (run : Run (Where (Calls allocator) Pool.Held) (.start allocator poolSize growable) calls pool)
    (some : 0 < pool.activeResources.length) :
    ∃ resource, Where (Calls allocator) Pool.Held pool (.release resource) (pool.release resource) ∧
      (pool.release resource).activeResources.length + 1 = pool.activeResources.length ∧
      (pool.release resource).inactiveResources.length = pool.inactiveResources.length + 1 := by
  have active := List.getElem_mem some
  exact ⟨_, release_step active, release_lengths (held_conserved fresh run) active⟩

/-- When the sum wraps, two resources that are taken and given back leave more than the sum, which
the next growth subtracts. -/
theorem growing_wraps (fresh : Function.Injective allocator) (sized : poolSize < 18446744073709551616)
    (wraps : ¬poolSize + max 1 (poolSize / 10) < 18446744073709551616) :
    ¬GrowingKept allocator poolSize := by
  intro kept
  have lengths := start_lengths allocator poolSize true
  have started : Run (Where (Calls allocator) Pool.Held) (.start allocator poolSize true) [] _ := .start _
  rcases full_pool_gives fresh sized wraps kept started (Nat.le_of_eq lengths.2) with
    ⟨first, firstStep, firstActive, firstInactive⟩
  have firstRun := started.next firstStep
  have firstTarget := run_target firstRun
  rcases full_pool_gives fresh sized wraps kept firstRun (by omega) with
    ⟨second, secondStep, secondActive, secondInactive⟩
  have secondRun := firstRun.next secondStep
  rcases some_released fresh secondRun (by omega) with ⟨one, thirdStep, thirdActive, thirdInactive⟩
  have thirdRun := secondRun.next thirdStep
  rcases some_released fresh thirdRun (by omega) with ⟨other, fourthStep, _, fourthInactive⟩
  have fourthRun := thirdRun.next fourthStep
  have secondTarget := run_target secondRun
  have fourthTarget := run_target fourthRun
  have reserve := run_target_wraps fourthRun sized wraps
  apply (kept _ _ fourthRun).2
  · rw [Pool.is_full_iff]
    omega
  · unfold Pool.Underflows
    omega

end Kept

/-- Both kinds of pool keep their promise over all runs exactly if the size and the reserve
together are a 64-bit number. -/
theorem pool_capacity_iff {allocator : Nat → Nat} (fresh : Function.Injective allocator) (poolSize : Nat)
    (sized : poolSize < 18446744073709551616) :
    (GrowingKept allocator poolSize ↔ poolSize + max 1 (poolSize / 10) < 18446744073709551616) ∧
    (FixedKept allocator poolSize ↔ poolSize + max 1 (poolSize / 10) < 18446744073709551616) := by
  constructor
  · constructor
    · intro kept
      by_contra wraps
      exact growing_wraps fresh sized wraps kept
    · intro fits calls pool run
      have sizes := run_sizes run
      have size : pool.poolSize = poolSize := sizes.1
      apply growing_kept sizes.2
      unfold Pool.spareSize
      rw [size]
      exact fits
  · constructor
    · intro kept
      by_contra wraps
      exact fixed_wraps sized wraps kept
    · intro fits
      exact fixed_kept fresh fits

theorem pool_capacity_iff_one :
    let held := [PoolCall.acquire].foldl (Pool.call swapped) (.start swapped 1 false)
    let grown := [PoolCall.acquire, .acquire, .acquire, .release 1].foldl (Pool.call swapped)
      (.start swapped 1 true)
    (held.acquire swapped).1 = .null ∧ grown.activeResources.length = 2 ∧
      ∃ resource, (grown.acquire swapped).1 = .resource resource := by
  intro held grown
  have kept := pool_capacity_iff swapped_injective 1 (by decide)
  have heldRun : Run (Where (Calls swapped) Pool.Held) (.start swapped 1 false) ([] ++ [.acquire]) held :=
    .next (.start _) ⟨rfl, fun _ => nofun⟩
  have grownRun : Run (Where (Calls swapped) Pool.Held) (.start swapped 1 true)
      ([] ++ [.acquire] ++ [.acquire] ++ [.acquire] ++ [.release 1]) grown :=
    .next (.next (.next (.next (.start _) ⟨rfl, fun _ => nofun⟩) ⟨rfl, fun _ => nofun⟩)
      ⟨rfl, fun _ => nofun⟩) ⟨rfl, fun resource same => by cases same; decide⟩
  refine ⟨?_, by decide, ?_⟩
  · exact (kept.2.mpr (by decide) _ _ heldRun).1.mpr (by decide)
  · exact (kept.1.mpr (by decide) _ _ grownRun).1

/-- The reserve of this size makes the sum 2^64: nothing is allocated, the pool that grows throws
and the one that does not refuses with nothing in use. -/
theorem sum_of_two_to_the_64 :
    ((Pool.start id 16769767339735956015 true).acquire id).1 = .badAlloc ∧
      ((Pool.start id 16769767339735956015 false).acquire id).1 = .null := by
  decide

section Growable

/-- A pool that grows is the one whose addresses are numbers in the order of their allocation. -/
structure Agrees (model : MemoryPool) (pool : Pool) : Prop where
  poolSize : pool.poolSize = model.poolSize
  growable : pool.growable = true
  active : pool.activeResources = model.activeResources
  inactive : pool.inactiveResources = model.inactiveResources
  allocated : pool.allocations = model.allocated

theorem model_ascending (model : MemoryPool) : model.activeResources.Pairwise (· < ·) := by
  have distinct : model.activeResources.Nodup := model.separate.of_append_left
  apply (model.sorted.and distinct).imp
  rintro earlier later ⟨ordered, different⟩
  omega

theorem same_arrangement {left right : List Nat} (leftOrdered : left.Pairwise (· ≤ ·))
    (rightOrdered : right.Pairwise (· ≤ ·)) (same : left.Perm right) : left = right :=
  same.eq_of_pairwise (fun _ _ _ _ => Nat.le_antisymm) leftOrdered rightOrdered

theorem insert_agrees {resource : Nat} {activeResources : List Nat}
    (ascending : activeResources.Pairwise (· < ·)) (absent : resource ∉ activeResources) :
    insertActiveResource resource activeResources =
      MemoryPool.insertActiveResource resource activeResources := by
  apply same_arrangement
  · exact (insert_active_ascending ascending absent).imp Nat.le_of_lt
  · exact (ascending.imp Nat.le_of_lt).orderedInsert resource activeResources
  · exact (insert_active_perm ascending resource).trans (List.perm_orderedInsert _ _ _).symm

theorem ready_agrees {model : MemoryPool} {pool : Pool} (agrees : Agrees model pool)
    (fits : pool.poolSize + pool.spareSize < 18446744073709551616) :
    Agrees (if model.isFull then model.prepareResources else model) (pool.ready id) := by
  have spare : pool.spareSize = model.spareSize := by
    rw [Pool.spareSize, MemoryPool.spareSize, agrees.poolSize]
  have full : pool.isFull = model.isFull := by
    rw [Pool.isFull, MemoryPool.isFull, agrees.inactive, spare]
  by_cases isFull : pool.isFull = true
  · have few := pool.is_full_iff.mp isFull
    have target := pool.target_exact fits
    have enough : ¬pool.Underflows := by
      unfold Pool.Underflows
      omega
    have needed : pool.neededSize = model.neededSize := by
      have exact := pool.needed_exact enough
      rw [target, agrees.inactive, agrees.poolSize, spare] at exact
      unfold MemoryPool.neededSize
      omega
    rw [Pool.ready, if_pos isFull, if_pos (full ▸ isFull)]
    constructor
    · exact agrees.poolSize
    · exact agrees.growable
    · exact agrees.active
    · simp only [Pool.prepareResources, MemoryPool.prepareResources, agrees.inactive, agrees.allocated,
        needed, List.range'_eq_map_range]
      rfl
    · simp only [Pool.prepareResources, MemoryPool.prepareResources, agrees.allocated, needed]
  · rw [ready_not_full isFull, if_neg (full ▸ isFull)]
    exact agrees

theorem start_agrees {poolSize : Nat} (fits : poolSize + max 1 (poolSize / 10) < 18446744073709551616) :
    Agrees (MemoryPool.create poolSize) (.start id poolSize true) := by
  have target := (Pool.create poolSize true).target_exact fits
  have exact := (Pool.create poolSize true).needed_exact (Nat.not_lt_zero _)
  have needed : (Pool.create poolSize true).neededSize = (MemoryPool.empty poolSize).neededSize :=
    exact.trans target
  constructor
  · rfl
  · rfl
  · rfl
  · simp only [Pool.start, Pool.initializePool, Pool.prepareResources, MemoryPool.create,
      MemoryPool.prepareResources, needed, List.range'_eq_map_range]
    rfl
  · simp only [Pool.start, Pool.initializePool, Pool.prepareResources, MemoryPool.create,
      MemoryPool.prepareResources, needed]
    rfl

theorem acquire_agrees {model : MemoryPool} {pool : Pool} (agrees : Agrees model pool)
    (fits : pool.poolSize + pool.spareSize < 18446744073709551616) :
    ∃ resource nextModel, model.acquire = some (resource, nextModel) ∧
      (pool.acquire id).1 = .resource resource ∧ Agrees nextModel (pool.acquire id).2 := by
  rcases model.acquire_succeeds with ⟨resource, nextModel, acquired⟩
  refine ⟨resource, nextModel, acquired, ?_⟩
  have ready := ready_agrees agrees fits
  unfold MemoryPool.acquire at acquired
  dsimp only at acquired
  split at acquired
  · cases acquired
  · rename_i rest first
    cases acquired
    have goesOn : ¬(pool.isFull && !pool.growable) = true := by
      rw [agrees.growable, Bool.not_true, Bool.and_false]
      exact Bool.false_ne_true
    have poolFirst : (pool.ready id).inactiveResources = resource :: rest := ready.inactive.trans first
    have ascending : (pool.ready id).activeResources.Pairwise (· < ·) := by
      rw [ready.active]
      exact model_ascending _
    have absent : resource ∉ (pool.ready id).activeResources := by
      rw [ready.active]
      intro active
      apply MemoryPool.active_not_inactive active
      rw [first]
      exact List.mem_cons_self
    simp only [Pool.acquire, if_neg goesOn, poolFirst]
    refine ⟨trivial, ready.poolSize, ready.growable, ?_, rfl, ready.allocated⟩
    exact (insert_agrees ascending absent).trans
      (congrArg (MemoryPool.insertActiveResource resource) ready.active)

theorem release_agrees {model : MemoryPool} {pool : Pool} (agrees : Agrees model pool)
    (resource : Nat) : Agrees (model.release resource) (pool.release resource) := by
  have ascending : pool.activeResources.Pairwise (· < ·) := by
    rw [agrees.active]
    exact model_ascending model
  have found := find_active_iff ascending resource
  have modelFound : (MemoryPool.findActiveResource resource model.activeResources).head? =
      some resource ↔ resource ∈ model.activeResources := MemoryPool.find_active_resource model.sorted
  rw [← agrees.active] at modelFound
  by_cases active : resource ∈ pool.activeResources
  · have poolFound := found.mpr active
    have modelHas := modelFound.mpr active
    have erased : pool.activeResources.eraseIdx (findActiveResource resource pool.activeResources) =
        MemoryPool.eraseActiveResource resource pool.activeResources := by
      apply same_arrangement
      · exact (ascending.imp Nat.le_of_lt).sublist (List.eraseIdx_sublist _ _)
      · exact (ascending.imp Nat.le_of_lt).sublist (MemoryPool.erase_active_sublist resource _)
      · exact List.Perm.cons_inv ((erase_active_perm poolFound).trans
          (MemoryPool.erase_active_perm modelHas).symm)
    rw [agrees.active] at modelHas
    simp only [Pool.release, if_pos poolFound, MemoryPool.release, dif_pos modelHas]
    refine ⟨agrees.poolSize, agrees.growable, ?_, ?_, agrees.allocated⟩
    · exact erased.trans (congrArg (MemoryPool.eraseActiveResource resource) agrees.active)
    · exact congrArg (fun inactive => inactive ++ [resource]) agrees.inactive
  · have poolMissing := active ∘ found.mp
    have modelMissing := active ∘ modelFound.mp
    rw [agrees.active] at modelMissing
    simp only [Pool.release, if_neg poolMissing, MemoryPool.release, dif_neg modelMissing]
    exact agrees

def modelCall (model : MemoryPool) : PoolCall → MemoryPool
  | .acquire => (model.acquire.map Prod.snd).getD model
  | .release resource => model.release resource

/-- Both pools are the same after the same calls. -/
theorem run_agrees {poolSize : Nat} (fits : poolSize + max 1 (poolSize / 10) < 18446744073709551616)
    {calls : List PoolCall} {pool : Pool} (run : Run (Calls id) (.start id poolSize true) calls pool) :
    Agrees (calls.foldl modelCall (MemoryPool.create poolSize)) pool := by
  have both : Agrees (calls.foldl modelCall (MemoryPool.create poolSize)) pool ∧
      pool.poolSize = poolSize := by
    apply run.invariant (fun history pool =>
      Agrees (history.foldl modelCall (MemoryPool.create poolSize)) pool ∧ pool.poolSize = poolSize)
      ⟨start_agrees fits, rfl⟩
    rintro history state call _ ⟨agrees, size⟩ rfl
    refine ⟨?_, (call_sizes call).1.trans size⟩
    rw [List.foldl_append, List.foldl_cons, List.foldl_nil]
    cases call with
    | acquire =>
        have stateFits : state.poolSize + state.spareSize < 18446744073709551616 := by
          unfold Pool.spareSize
          rw [size]
          exact fits
        rcases acquire_agrees agrees stateFits with ⟨resource, next, acquired, _, after⟩
        rw [modelCall, acquired]
        exact after
    | release resource => exact release_agrees agrees resource
  exact both.1

end Growable

end Sne.Base.PoolRuns
