import Mathlib.Data.List.Nodup
import Mathlib.Data.List.Pairwise
import Mathlib.Data.List.Perm.Basic
import Sne.Library.Bisection
import Sne.Library.ByteMemory
import Sne.Library.Endian
import Sne.Library.Runs

/-!
# The allocator of various sizes

`VariousMemoryAllocator.h`. A chunk begins with a word that holds its size, and the caller
gets the address behind it. What is given back goes into a vector in the order of the
sizes, with the size that its word says. `regions` and `loans` are not in the source: they
record what `operator new` gave out and what the callers have.
-/

namespace Sne.Base.VariousMemory

open Sne.Library.Bisection Sne.Library.ByteMemory Sne.Library.Endian Sne.Library.Runs

set_option autoImplicit false

/-- `sizeof(size_t)`. -/
def headerSize : Nat := 8

theorem size_with_word {chunkSize : Nat} (small : chunkSize + headerSize < 18446744073709551616) :
    sizeT (chunkSize + headerSize) = chunkSize + headerSize :=
  size_t_sum small

structure Block where
  chunkSize : Nat
  chunk : Nat
  deriving DecidableEq, Repr

/-- The bytes of a `new uint8_t[bytes]`. -/
structure Region where
  address : Nat
  bytes : Nat
  deriving DecidableEq, Repr

/-- A chunk that a caller has, with the size that it asked for. -/
structure Loan where
  chunk : Nat
  nbytes : Nat
  deriving DecidableEq, Repr

structure VariousMemoryAllocator where
  cachedBlocks : List Block
  memory : Memory
  regions : List Region
  loans : List Loan

inductive Returned where
  | threw
  | null
  | pointer (ptr : Nat)
  deriving DecidableEq, Repr

def chunkHeader (memory : Memory) (chunk : Nat) : Nat := ofLittleEndian (read memory chunk headerSize)

/-- `Block(chunkSize)`, with the address of its new region. -/
def VariousMemoryAllocator.construct (chunkSize address : Nat) (allocator : VariousMemoryAllocator) :
    VariousMemoryAllocator :=
  { allocator with
    memory := write allocator.memory address (littleEndian headerSize chunkSize)
    regions := allocator.regions ++ [{ address, bytes := sizeT (chunkSize + headerSize) }] }

def findBlock (chunkSize : Nat) (cachedBlocks : List Block) : Nat :=
  lowerBound (fun block => decide (block.chunkSize < chunkSize)) cachedBlocks

def insertBlock (block : Block) (cachedBlocks : List Block) : List Block :=
  let pos := findBlock block.chunkSize cachedBlocks
  if pos ≠ cachedBlocks.length then cachedBlocks.insertIdx pos block else cachedBlocks ++ [block]

namespace VariousMemoryAllocator

def lend (chunk nbytes : Nat) (allocator : VariousMemoryAllocator) : Returned × VariousMemoryAllocator :=
  if chunk = 0 then
    (.null, allocator)
  else
    (.pointer (chunk + headerSize), { allocator with loans := { chunk, nbytes } :: allocator.loans })

/-- `new` is `operator new[]` at the time of the call. -/
def malloc (new : Nat → Option Nat) (nbytes : Nat) (allocator : VariousMemoryAllocator) :
    Returned × VariousMemoryAllocator :=
  let pos := findBlock nbytes allocator.cachedBlocks
  match allocator.cachedBlocks[pos]? with
  | some block =>
      { allocator with cachedBlocks := allocator.cachedBlocks.eraseIdx pos }.lend block.chunk nbytes
  | none =>
      match new (sizeT (nbytes + headerSize)) with
      | some address => (allocator.construct nbytes address).lend address nbytes
      | none => (.threw, allocator)

def calloc (new : Nat → Option Nat) (nbytes : Nat) (initialValue : UInt8)
    (allocator : VariousMemoryAllocator) : Returned × VariousMemoryAllocator :=
  match allocator.malloc new nbytes with
  | (.pointer ptr, next) => (.pointer ptr,
      { next with memory := write next.memory ptr (List.replicate nbytes initialValue) })
  | (failed, next) => (failed, next)

/-- The overload with a number of elements. -/
def callocElements (new : Nat → Option Nat) (elements elementSize : Nat) (initialValue : UInt8)
    (allocator : VariousMemoryAllocator) : Returned × VariousMemoryAllocator :=
  allocator.calloc new (sizeT (elements * elementSize)) initialValue

def free (ptr : Nat) (allocator : VariousMemoryAllocator) : VariousMemoryAllocator :=
  if ptr ≠ 0 then
    let chunk := ptr - headerSize
    { allocator with
      cachedBlocks := insertBlock { chunkSize := chunkHeader allocator.memory chunk, chunk }
        allocator.cachedBlocks
      loans := allocator.loans.eraseP fun loan => loan.chunk == chunk }
  else
    allocator

def emplaceBack (chunkSize address : Nat) (allocator : VariousMemoryAllocator) :
    VariousMemoryAllocator :=
  { allocator.construct chunkSize address with
    cachedBlocks := allocator.cachedBlocks ++ [{ chunkSize, chunk := address }] }

def store (address : Nat) (bytes : List UInt8) (allocator : VariousMemoryAllocator) :
    VariousMemoryAllocator :=
  { allocator with memory := write allocator.memory address bytes }

end VariousMemoryAllocator

def Apart (first second : Region) : Prop :=
  first.address + first.bytes ≤ second.address ∨ second.address + second.bytes ≤ first.address

instance : Std.Symm Apart := ⟨fun _ _ => Or.symm⟩

theorem moved_perm {Entry : Type} (front back before after : List Entry) (entry : Entry) :
    (front ++ entry :: back ++ (before ++ after)).Perm (front ++ back ++ (before ++ entry :: after)) := by
  have taken : (front ++ entry :: back ++ (before ++ after)).Perm
      (entry :: (front ++ back ++ before ++ after)) := by
    rw [List.append_assoc (front ++ back)]
    exact List.perm_middle.append_right (before ++ after)
  rw [← List.append_assoc (front ++ back)]
  exact taken.trans List.perm_middle.symm

/-- `operator new` gives bytes that nobody has. -/
def Fresh (new : Nat → Option Nat) (regions : List Region) : Prop :=
  ∀ bytes address, new bytes = some address →
    address ≠ 0 ∧ ∀ region ∈ regions, Apart region { address, bytes }

def VariousMemoryAllocator.chunks (allocator : VariousMemoryAllocator) : List Nat :=
  allocator.cachedBlocks.map Block.chunk ++ allocator.loans.map Loan.chunk

/-- The regions do not overlap and each begins with its size. -/
structure Heap (memory : Memory) (regions : List Region) : Prop where
  apart : regions.Pairwise Apart
  headers : ∀ region ∈ regions, region.bytes = chunkHeader memory region.address + headerSize
  nonnull : ∀ region ∈ regions, region.address ≠ 0
  bounded : ∀ region ∈ regions, region.bytes < 18446744073709551616

/-- Every chunk is cached with its size, or handed out for at most its size. -/
structure Sound (allocator : VariousMemoryAllocator) : Prop where
  heap : Heap allocator.memory allocator.regions
  sorted : allocator.cachedBlocks.Pairwise fun earlier later => earlier.chunkSize ≤ later.chunkSize
  balance : allocator.chunks.Perm (allocator.regions.map Region.address)
  cachedSizes : ∀ block ∈ allocator.cachedBlocks,
    { address := block.chunk, bytes := block.chunkSize + headerSize } ∈ allocator.regions
  loanSizes : ∀ loan ∈ allocator.loans, ∃ region ∈ allocator.regions,
    region.address = loan.chunk ∧ loan.nbytes + headerSize ≤ region.bytes

namespace Heap

variable {memory : Memory} {regions : List Region}

theorem roomy (heap : Heap memory regions) {region : Region} (member : region ∈ regions) :
    headerSize ≤ region.bytes := by
  rw [heap.headers region member]
  exact Nat.le_add_left _ _

theorem addresses_nodup (heap : Heap memory regions) : (regions.map Region.address).Nodup := by
  apply List.pairwise_map.mpr
  apply heap.apart.imp_of_mem
  intro first second firstMember secondMember apart same
  have firstRoomy := heap.roomy firstMember
  have secondRoomy := heap.roomy secondMember
  unfold headerSize at firstRoomy secondRoomy
  rcases apart with before | behind
  · omega
  · omega

/-- What is written outside of the words leaves the heap as it is. -/
theorem written (heap : Heap memory regions) (address : Nat) (bytes : List UInt8)
    (outside : ∀ region ∈ regions, region.address + headerSize ≤ address ∨
      address + bytes.length ≤ region.address) :
    Heap (write memory address bytes) regions where
  apart := heap.apart
  headers region member := by
    rw [heap.headers region member, chunkHeader, chunkHeader,
      read_write_apart _ _ _ _ _ (outside region member)]
  nonnull := heap.nonnull
  bounded := heap.bounded

theorem added (heap : Heap memory regions) {chunkSize address : Nat}
    (small : chunkSize + headerSize < 18446744073709551616) (nonnull : address ≠ 0)
    (fresh : ∀ region ∈ regions, Apart region { address, bytes := chunkSize + headerSize }) :
    Heap (write memory address (littleEndian headerSize chunkSize))
      (regions ++ [{ address, bytes := chunkSize + headerSize }]) := by
  have word : (littleEndian headerSize chunkSize).length = headerSize := little_endian_length _ _
  have outside : ∀ region ∈ regions, region.address + headerSize ≤ address ∨
      address + (littleEndian headerSize chunkSize).length ≤ region.address := by
    intro region member
    have roomy := heap.roomy member
    have apart := fresh region member
    unfold Apart at apart
    dsimp only at apart
    omega
  have kept := heap.written address _ outside
  have own : chunkHeader (write memory address (littleEndian headerSize chunkSize)) address =
      chunkSize := by
    rw [chunkHeader, read_write _ _ word, of_little_endian_little_endian]
    unfold headerSize at small ⊢
    omega
  constructor
  · apply List.pairwise_append.mpr
    refine ⟨kept.apart, List.pairwise_singleton _ _, ?_⟩
    intro region member new same
    rw [List.mem_singleton.mp same]
    exact fresh region member
  · intro region member
    rcases List.mem_append.mp member with old | new
    · exact kept.headers region old
    · rw [List.mem_singleton.mp new, own]
  · intro region member
    rcases List.mem_append.mp member with old | new
    · exact heap.nonnull region old
    · rw [List.mem_singleton.mp new]
      exact nonnull
  · intro region member
    rcases List.mem_append.mp member with old | new
    · exact heap.bounded region old
    · rw [List.mem_singleton.mp new]
      exact small

end Heap

section Search

variable {cachedBlocks : List Block}

theorem blocks_split
    (sorted : cachedBlocks.Pairwise fun earlier later => earlier.chunkSize ≤ later.chunkSize)
    (chunkSize : Nat) : ∃ front back,
      Split (fun block => decide (block.chunkSize < chunkSize)) cachedBlocks front back := by
  apply exists_split
  apply sorted.imp
  intro earlier later ordered before
  simp only [decide_eq_true_eq] at before ⊢
  omega

theorem insert_block_split
    (sorted : cachedBlocks.Pairwise fun earlier later => earlier.chunkSize ≤ later.chunkSize)
    (block : Block) : ∃ front back, cachedBlocks = front ++ back ∧
      insertBlock block cachedBlocks = front ++ block :: back ∧
      (insertBlock block cachedBlocks).Pairwise fun earlier later =>
        earlier.chunkSize ≤ later.chunkSize := by
  rcases blocks_split sorted block.chunkSize with ⟨front, back, parts⟩
  have inserted : insertBlock block cachedBlocks = front ++ block :: back := by
    unfold insertBlock
    dsimp only
    split
    · exact insert_at_lower_bound parts block
    · rename_i atEnd
      rw [findBlock, lower_bound_eq parts, parts.whole, List.length_append] at atEnd
      have none : back = [] := List.length_eq_zero_iff.mp (by omega)
      rw [parts.whole, none, List.append_nil]
  refine ⟨front, back, parts.whole, inserted, ?_⟩
  rw [inserted]
  rw [parts.whole] at sorted
  apply pairwise_insert sorted
  · intro other inFront
    exact Nat.le_of_lt (of_decide_eq_true (parts.passes other inFront))
  · intro other inBack
    exact Nat.le_of_not_lt (of_decide_eq_false (parts.fails other inBack))

/-- The block that is found is one of the smallest that are large enough. -/
theorem found_best
    (sorted : cachedBlocks.Pairwise fun earlier later => earlier.chunkSize ≤ later.chunkSize)
    {nbytes : Nat} {block : Block} (found : cachedBlocks[findBlock nbytes cachedBlocks]? = some block) :
    nbytes ≤ block.chunkSize ∧
      ∀ other ∈ cachedBlocks, nbytes ≤ other.chunkSize → block.chunkSize ≤ other.chunkSize := by
  rcases blocks_split sorted nbytes with ⟨front, back, parts⟩
  rw [findBlock, at_lower_bound parts] at found
  rcases List.head?_eq_some_iff.mp found with ⟨rest, rfl⟩
  refine ⟨Nat.le_of_not_lt (of_decide_eq_false (parts.fails block List.mem_cons_self)), ?_⟩
  intro other member enough
  rw [parts.whole] at member sorted
  rcases List.mem_append.mp member with inFront | inBack
  · have smaller := of_decide_eq_true (parts.passes other inFront)
    omega
  · rcases List.mem_cons.mp inBack with same | behind
    · rw [same]
    · exact (List.pairwise_cons.mp (List.pairwise_append.mp sorted).2.1).1 other behind

theorem none_found
    (sorted : cachedBlocks.Pairwise fun earlier later => earlier.chunkSize ≤ later.chunkSize)
    {nbytes : Nat} (missing : cachedBlocks[findBlock nbytes cachedBlocks]? = none) :
    ∀ block ∈ cachedBlocks, block.chunkSize < nbytes := by
  rcases blocks_split sorted nbytes with ⟨front, back, parts⟩
  rw [findBlock, at_lower_bound parts, List.head?_eq_none_iff] at missing
  intro block member
  rw [parts.whole, missing, List.append_nil] at member
  exact of_decide_eq_true (parts.passes block member)

end Search

namespace Sound

variable {allocator : VariousMemoryAllocator} {new : Nat → Option Nat}

theorem loan_region (sound : Sound allocator) {loan : Loan} (member : loan ∈ allocator.loans) :
    ∃ region ∈ allocator.regions, region.address = loan.chunk ∧ loan.nbytes + headerSize ≤ region.bytes :=
  sound.loanSizes loan member

theorem chunks_nodup (sound : Sound allocator) : allocator.chunks.Nodup :=
  sound.balance.nodup_iff.mpr sound.heap.addresses_nodup

/-- What `malloc` does: it takes one of the smallest blocks that are large enough, or a new one
of the size that is asked for, if there is memory. -/
theorem malloc_cases (sound : Sound allocator) (fresh : Fresh new allocator.regions) (nbytes : Nat) :
    (∃ front block rest, allocator.cachedBlocks = front ++ block :: rest ∧ nbytes ≤ block.chunkSize ∧
      (∀ other ∈ allocator.cachedBlocks, nbytes ≤ other.chunkSize → block.chunkSize ≤ other.chunkSize) ∧
      allocator.malloc new nbytes = (.pointer (block.chunk + headerSize), { allocator with
        cachedBlocks := front ++ rest
        loans := { chunk := block.chunk, nbytes } :: allocator.loans })) ∨
    (∀ block ∈ allocator.cachedBlocks, block.chunkSize < nbytes) ∧
      ((new (sizeT (nbytes + headerSize)) = none ∧ allocator.malloc new nbytes = (.threw, allocator)) ∨
      ∃ address, new (sizeT (nbytes + headerSize)) = some address ∧
        allocator.malloc new nbytes = (.pointer (address + headerSize),
          { allocator.construct nbytes address with
            loans := { chunk := address, nbytes } :: allocator.loans })) := by
  cases found : allocator.cachedBlocks[findBlock nbytes allocator.cachedBlocks]? with
  | some block =>
      left
      rcases split_at found with ⟨front, rest, whole, erased, _⟩
      rcases found_best sound.sorted found with ⟨enough, best⟩
      have member : block ∈ allocator.cachedBlocks := List.mem_of_getElem? found
      have nonnull := sound.heap.nonnull _ (sound.cachedSizes block member)
      refine ⟨front, block, rest, whole, enough, best, ?_⟩
      simp only [VariousMemoryAllocator.malloc, found, VariousMemoryAllocator.lend, if_neg nonnull, erased]
  | none =>
      right
      refine ⟨none_found sound.sorted found, ?_⟩
      cases given : new (sizeT (nbytes + headerSize)) with
      | none =>
          left
          simp only [VariousMemoryAllocator.malloc, found, given, and_self]
      | some address =>
          right
          have nonnull := (fresh _ address given).1
          refine ⟨address, rfl, ?_⟩
          simp only [VariousMemoryAllocator.malloc, found, given, VariousMemoryAllocator.lend,
            if_neg nonnull]
          rfl

theorem lent (sound : Sound allocator) {front rest : List Block} {block : Block} {nbytes : Nat}
    (whole : allocator.cachedBlocks = front ++ block :: rest) (enough : nbytes ≤ block.chunkSize) :
    Sound { allocator with
      cachedBlocks := front ++ rest
      loans := { chunk := block.chunk, nbytes } :: allocator.loans } := by
  have kept : (front ++ rest).Sublist allocator.cachedBlocks := by
    rw [whole]
    exact List.Sublist.append_left (List.sublist_cons_self block rest) front
  constructor
  · exact sound.heap
  · exact sound.sorted.sublist kept
  · apply List.Perm.trans _ sound.balance
    simp only [VariousMemoryAllocator.chunks, whole, List.map_append, List.map_cons]
    rw [List.append_assoc, List.append_assoc]
    apply List.Perm.append_left
    exact List.perm_middle
  · intro other member
    exact sound.cachedSizes other (kept.subset member)
  · intro loan member
    rcases List.mem_cons.mp member with rfl | old
    · refine ⟨_, sound.cachedSizes block (by rw [whole]; simp), rfl, ?_⟩
      exact Nat.add_le_add_right enough headerSize
    · exact sound.loanSizes loan old

theorem extended (sound : Sound allocator) {nbytes address : Nat}
    (small : nbytes + headerSize < 18446744073709551616) (nonnull : address ≠ 0)
    (apart : ∀ region ∈ allocator.regions, Apart region { address, bytes := nbytes + headerSize })
    {cachedBlocks : List Block} {loans : List Loan}
    (sorted : cachedBlocks.Pairwise fun earlier later => earlier.chunkSize ≤ later.chunkSize)
    (balance : (cachedBlocks.map Block.chunk ++ loans.map Loan.chunk).Perm (allocator.chunks ++ [address]))
    (cachedOrNew : ∀ block ∈ cachedBlocks, block ∈ allocator.cachedBlocks ∨
      block = { chunkSize := nbytes, chunk := address })
    (lentOrNew : ∀ loan ∈ loans, loan ∈ allocator.loans ∨ loan = { chunk := address, nbytes }) :
    Sound { allocator.construct nbytes address with cachedBlocks, loans } := by
  have exact := size_with_word small
  have regions : (allocator.construct nbytes address).regions =
      allocator.regions ++ [{ address, bytes := nbytes + headerSize }] := by
    rw [VariousMemoryAllocator.construct, exact]
  constructor
  · dsimp only
    rw [regions]
    exact sound.heap.added small nonnull apart
  · exact sorted
  · dsimp only
    rw [regions, List.map_append]
    exact balance.trans (sound.balance.append_right [address])
  · intro block member
    dsimp only
    rw [regions]
    rcases cachedOrNew block member with old | rfl
    · exact List.mem_append_left _ (sound.cachedSizes block old)
    · exact List.mem_append_right _ (List.mem_singleton_self _)
  · intro loan member
    dsimp only
    rw [regions]
    rcases lentOrNew loan member with old | rfl
    · rcases sound.loanSizes loan old with ⟨region, known, same, enough⟩
      exact ⟨region, List.mem_append_left _ known, same, enough⟩
    · exact ⟨_, List.mem_append_right _ (List.mem_singleton_self _), rfl, Nat.le_refl _⟩

theorem constructed (sound : Sound allocator) {nbytes address : Nat}
    (small : nbytes + headerSize < 18446744073709551616) (nonnull : address ≠ 0)
    (apart : ∀ region ∈ allocator.regions, Apart region { address, bytes := nbytes + headerSize }) :
    Sound { allocator.construct nbytes address with
      loans := { chunk := address, nbytes } :: allocator.loans } := by
  apply sound.extended small nonnull apart sound.sorted
  · exact List.perm_middle.trans (List.perm_append_singleton address _).symm
  · intro block member
    exact Or.inl member
  · intro loan member
    rcases List.mem_cons.mp member with new | old
    · exact Or.inr new
    · exact Or.inl old

theorem emplaced (sound : Sound allocator) {chunkSize address : Nat}
    (small : chunkSize + headerSize < 18446744073709551616) (nonnull : address ≠ 0)
    (apart : ∀ region ∈ allocator.regions, Apart region { address, bytes := chunkSize + headerSize })
    (largest : ∀ block ∈ allocator.cachedBlocks, block.chunkSize ≤ chunkSize) :
    Sound (allocator.emplaceBack chunkSize address) := by
  apply sound.extended small nonnull apart
  · apply List.pairwise_append.mpr
    refine ⟨sound.sorted, List.pairwise_singleton _ _, ?_⟩
    intro block member new same
    rw [List.mem_singleton.mp same]
    exact largest block member
  · rw [VariousMemoryAllocator.chunks, List.map_append, List.append_assoc, List.append_assoc]
    apply List.Perm.append_left
    exact List.perm_append_comm
  · intro block member
    rcases List.mem_append.mp member with old | new
    · exact Or.inl old
    · exact Or.inr (List.mem_singleton.mp new)
  · intro loan member
    exact Or.inl member

def Computed (new : Nat → Option Nat) (nbytes : Nat) : Prop :=
  nbytes + headerSize < 18446744073709551616 ∨ new (sizeT (nbytes + headerSize)) = none

theorem malloced (sound : Sound allocator) (fresh : Fresh new allocator.regions) {nbytes : Nat}
    (computed : Computed new nbytes) : Sound (allocator.malloc new nbytes).2 := by
  rcases sound.malloc_cases fresh nbytes with
    ⟨front, block, rest, whole, enough, _, result⟩ | ⟨_, ⟨_, result⟩ | ⟨address, given, result⟩⟩
  · rw [result]
    exact sound.lent whole enough
  · rw [result]
    exact sound
  · rw [result]
    have small : nbytes + headerSize < 18446744073709551616 := by
      rcases computed with small | refused
      · exact small
      · rw [refused] at given
        cases given
    rw [size_with_word small] at given
    rcases fresh _ address given with ⟨nonnull, apart⟩
    exact sound.constructed small nonnull apart

/-- A pointer that `malloc` returns is that of a loan. -/
theorem malloc_lends (sound : Sound allocator) (fresh : Fresh new allocator.regions) {nbytes ptr : Nat}
    {next : VariousMemoryAllocator} (result : allocator.malloc new nbytes = (.pointer ptr, next)) :
    ∃ loan ∈ next.loans, loan.nbytes = nbytes ∧ ptr = loan.chunk + headerSize := by
  rcases sound.malloc_cases fresh nbytes with
    ⟨front, block, rest, _, _, _, cached⟩ | ⟨_, ⟨_, refused⟩ | ⟨address, _, given⟩⟩
  · rw [cached] at result
    cases result
    exact ⟨_, List.mem_cons_self, rfl, rfl⟩
  · rw [refused] at result
    cases result
  · rw [given] at result
    cases result
    exact ⟨_, List.mem_cons_self, rfl, rfl⟩

/-- A caller that keeps to what it asked for does not reach any word. -/
theorem stored (sound : Sound allocator) {loan : Loan} (member : loan ∈ allocator.loans) {address : Nat}
    {bytes : List UInt8} (lower : loan.chunk + headerSize ≤ address)
    (upper : address + bytes.length ≤ loan.chunk + headerSize + loan.nbytes) :
    Sound (allocator.store address bytes) := by
  rcases sound.loan_region member with ⟨own, known, same, enough⟩
  refine ⟨sound.heap.written address bytes ?_, sound.sorted, sound.balance, sound.cachedSizes,
    sound.loanSizes⟩
  intro region other
  by_cases mine : region.address = own.address
  · left
    omega
  · have roomy := sound.heap.roomy other
    have different : region ≠ own := fun equal => mine (congrArg Region.address equal)
    have apart : Apart region own := sound.heap.apart.forall other known different
    unfold Apart at apart
    omega

theorem calloced (sound : Sound allocator) (fresh : Fresh new allocator.regions) {nbytes : Nat}
    (initialValue : UInt8) (computed : Computed new nbytes) :
    Sound (allocator.calloc new nbytes initialValue).2 := by
  have malloced := sound.malloced fresh computed
  cases result : allocator.malloc new nbytes with
  | mk returned next =>
      rw [result] at malloced
      cases returned with
      | threw =>
          simp only [VariousMemoryAllocator.calloc, result]
          exact malloced
      | null =>
          simp only [VariousMemoryAllocator.calloc, result]
          exact malloced
      | pointer ptr =>
          rcases sound.malloc_lends fresh result with ⟨loan, member, size, rfl⟩
          simp only [VariousMemoryAllocator.calloc, result]
          apply malloced.stored member (Nat.le_refl _)
          rw [List.length_replicate, size]

theorem freed (sound : Sound allocator) {loan : Loan} (member : loan ∈ allocator.loans) :
    Sound (allocator.free (loan.chunk + headerSize)) := by
  rcases sound.loan_region member with ⟨own, known, same, _⟩
  have ownBytes := sound.heap.headers own known
  rw [same] at ownBytes
  have chunk : loan.chunk + headerSize - headerSize = loan.chunk := Nat.add_sub_cancel _ _
  have some : loan.chunk + headerSize ≠ 0 := Nat.add_one_ne_zero (loan.chunk + 7)
  rcases List.exists_of_eraseP (p := fun other => other.chunk == loan.chunk) member
    (beq_self_eq_true _) with ⟨removed, before, after, _, removedSame, loans, erased⟩
  have removedChunk : removed.chunk = loan.chunk := eq_of_beq removedSame
  rcases insert_block_split sound.sorted
    { chunkSize := chunkHeader allocator.memory loan.chunk, chunk := loan.chunk } with
    ⟨front, back, whole, inserted, ordered⟩
  have freed : allocator.free (loan.chunk + headerSize) = { allocator with
      cachedBlocks := insertBlock { chunkSize := chunkHeader allocator.memory loan.chunk,
                                    chunk := loan.chunk } allocator.cachedBlocks
      loans := before ++ after } := by
    simp only [VariousMemoryAllocator.free, if_pos some, chunk, erased]
  rw [freed]
  constructor
  · exact sound.heap
  · exact ordered
  · apply List.Perm.trans _ sound.balance
    simp only [VariousMemoryAllocator.chunks, inserted]
    simp only [whole, loans, List.map_append, List.map_cons, removedChunk]
    exact moved_perm _ _ _ _ _
  · intro block member
    dsimp only at member
    rw [inserted] at member
    rcases List.mem_append.mp member with inFront | inBack
    · exact sound.cachedSizes block (by rw [whole]; exact List.mem_append_left _ inFront)
    · rcases List.mem_cons.mp inBack with rfl | behind
      · rw [← ownBytes, ← same]
        exact known
      · exact sound.cachedSizes block (by rw [whole]; exact List.mem_append_right _ behind)
  · intro other member
    apply sound.loanSizes other
    rw [loans]
    rcases List.mem_append.mp member with early | late
    · exact List.mem_append_left _ early
    · exact List.mem_append_right _ (List.mem_cons_of_mem _ late)

end Sound

inductive Preallocated (chunkSize : Nat) : Nat → VariousMemoryAllocator → Prop where
  | none (memory : Memory) :
      Preallocated chunkSize 0 { cachedBlocks := [], memory, regions := [], loans := [] }
  | next {poolSize address : Nat} {allocator : VariousMemoryAllocator} {new : Nat → Option Nat} :
      Preallocated chunkSize poolSize allocator → Fresh new allocator.regions →
      new (sizeT (chunkSize + headerSize)) = some address →
      Preallocated chunkSize (poolSize + 1) (allocator.emplaceBack chunkSize address)

inductive AllocatorCall where
  | malloc (nbytes : Nat)
  | calloc (nbytes : Nat) (initialValue : UInt8)
  | callocElements (elements elementSize : Nat) (initialValue : UInt8)
  | free (ptr : Nat)
  | store (address : Nat) (bytes : List UInt8)
  deriving DecidableEq, Repr

namespace AllocatorCall

def perform (new : Nat → Option Nat) (allocator : VariousMemoryAllocator) :
    AllocatorCall → VariousMemoryAllocator
  | malloc nbytes => (allocator.malloc new nbytes).2
  | calloc nbytes initialValue => (allocator.calloc new nbytes initialValue).2
  | callocElements elements elementSize initialValue =>
      (allocator.callocElements new elements elementSize initialValue).2
  | free ptr => allocator.free ptr
  | store address bytes => allocator.store address bytes

/-- A pointer is freed by the caller that has it, and written through within what was asked for. -/
def Permitted (allocator : VariousMemoryAllocator) : AllocatorCall → Prop
  | free ptr => ptr = 0 ∨ ∃ loan ∈ allocator.loans, ptr = loan.chunk + headerSize
  | store address bytes => ∃ loan ∈ allocator.loans, loan.chunk + headerSize ≤ address ∧
      address + bytes.length ≤ loan.chunk + headerSize + loan.nbytes
  | _ => True

def asked : AllocatorCall → Nat
  | malloc nbytes => nbytes
  | calloc nbytes _ => nbytes
  | callocElements elements elementSize _ => sizeT (elements * elementSize)
  | _ => 0

/-- The bytes that a call asks for, as they are meant. -/
def wanted : AllocatorCall → Nat
  | malloc nbytes => nbytes
  | calloc nbytes _ => nbytes
  | callocElements elements elementSize _ => elements * elementSize
  | _ => 0

end AllocatorCall

structure AllocatorEvent where
  call : AllocatorCall
  new : Nat → Option Nat

def Takes (allocator : VariousMemoryAllocator) (event : AllocatorEvent) (next : VariousMemoryAllocator) :
    Prop :=
  event.call.Permitted allocator ∧ Fresh event.new allocator.regions ∧
    next = event.call.perform event.new allocator

def SmallEnough (call : AllocatorCall) : Prop := call.wanted + headerSize < 18446744073709551616

instance (call : AllocatorCall) : Decidable (SmallEnough call) :=
  inferInstanceAs (Decidable (call.wanted + headerSize < 18446744073709551616))

def OfSmallSize (_ : VariousMemoryAllocator) (event : AllocatorEvent) : Prop := SmallEnough event.call

instance (allocator : VariousMemoryAllocator) (event : AllocatorEvent) :
    Decidable (OfSmallSize allocator event) :=
  inferInstanceAs (Decidable (SmallEnough event.call))

theorem preallocated_sound {chunkSize poolSize : Nat} {allocator : VariousMemoryAllocator}
    (preallocated : Preallocated chunkSize poolSize allocator)
    (small : 0 < poolSize → chunkSize + headerSize < 18446744073709551616) :
    Sound allocator ∧ allocator.loans = [] ∧
      ∀ block ∈ allocator.cachedBlocks, block.chunkSize = chunkSize := by
  induction preallocated with
  | none memory =>
      refine ⟨⟨⟨.nil, ?_, ?_, ?_⟩, .nil, .nil, ?_, ?_⟩, rfl, ?_⟩
      all_goals
        intro _ member
        cases member
  | next earlier fresh given induction =>
      have enough := small (Nat.zero_lt_succ _)
      rcases induction fun _ => enough with ⟨sound, noLoans, sizes⟩
      rw [size_with_word enough] at given
      rcases fresh _ _ given with ⟨nonnull, apart⟩
      refine ⟨sound.emplaced enough nonnull apart ?_, noLoans, ?_⟩
      · intro block member
        exact Nat.le_of_eq (sizes block member)
      · intro block member
        rcases List.mem_append.mp member with old | new
        · exact sizes block old
        · rw [List.mem_singleton.mp new]

theorem small_asked {call : AllocatorCall} (small : SmallEnough call) : call.asked = call.wanted := by
  unfold SmallEnough headerSize at small
  cases call with
  | callocElements elements elementSize initialValue =>
      simp only [AllocatorCall.wanted] at small
      have value : (sizeT (elements * elementSize : Nat) : Int) = (elements * elementSize : Nat) :=
        size_t_exact (by omega) (by omega)
      simp only [AllocatorCall.asked, AllocatorCall.wanted]
      push_cast at value
      omega
  | malloc nbytes => rfl
  | calloc nbytes initialValue => rfl
  | free ptr => rfl
  | store address bytes => rfl

theorem call_sound {allocator : VariousMemoryAllocator} {new : Nat → Option Nat}
    (sound : Sound allocator) (fresh : Fresh new allocator.regions) {call : AllocatorCall}
    (permitted : call.Permitted allocator) (computed : Sound.Computed new call.asked) :
    Sound (call.perform new allocator) := by
  cases call with
  | malloc nbytes => exact sound.malloced fresh computed
  | calloc nbytes initialValue => exact sound.calloced fresh initialValue computed
  | callocElements elements elementSize initialValue =>
      exact sound.calloced fresh initialValue computed
  | free ptr =>
      rcases permitted with rfl | ⟨loan, member, rfl⟩
      · exact sound
      · exact sound.freed member
  | store address bytes =>
      rcases permitted with ⟨loan, member, lower, upper⟩
      exact sound.stored member lower upper

theorem small_computed {call : AllocatorCall} (small : SmallEnough call) (new : Nat → Option Nat) :
    Sound.Computed new call.asked := by
  left
  rw [small_asked small]
  exact small

theorem run_sound {start allocator : VariousMemoryAllocator} {events : List AllocatorEvent}
    (sound : Sound start) (run : Run (Where Takes OfSmallSize) start events allocator) :
    Sound allocator := by
  apply run.invariant (fun _ allocator => Sound allocator) sound
  rintro _ state event _ before ⟨⟨permitted, fresh, rfl⟩, small⟩
  exact call_sound before fresh permitted (small_computed small event.new)

/-- After any calls with sizes that do not overflow: the cache is in the order of the sizes; no
chunk is there twice or both cached and handed out, and together they are all that were
allocated; the word of each chunk is its size. `malloc` takes one of the smallest blocks that
are large enough, and if there is none a new one of the size asked for. -/
theorem best_fit_cache {chunkSize poolSize : Nat} {start allocator : VariousMemoryAllocator}
    {events : List AllocatorEvent} (small : 0 < poolSize → chunkSize + headerSize < 18446744073709551616)
    (preallocated : Preallocated chunkSize poolSize start)
    (run : Run (Where Takes OfSmallSize) start events allocator) :
    (allocator.cachedBlocks.Pairwise fun earlier later => earlier.chunkSize ≤ later.chunkSize) ∧
    (allocator.cachedBlocks.map Block.chunk ++ allocator.loans.map Loan.chunk).Nodup ∧
    (∀ chunk, chunk ∈ allocator.cachedBlocks.map Block.chunk ++ allocator.loans.map Loan.chunk ↔
      chunk ∈ allocator.regions.map Region.address) ∧
    (∀ region ∈ allocator.regions,
      region.bytes = chunkHeader allocator.memory region.address + headerSize) ∧
    (∀ block ∈ allocator.cachedBlocks, block.chunkSize = chunkHeader allocator.memory block.chunk) ∧
    ∀ new nbytes, Fresh new allocator.regions → nbytes + headerSize < 18446744073709551616 →
      (∃ block ∈ allocator.cachedBlocks, nbytes ≤ block.chunkSize ∧
        (∀ other ∈ allocator.cachedBlocks, nbytes ≤ other.chunkSize →
          block.chunkSize ≤ other.chunkSize) ∧
        (allocator.malloc new nbytes).1 = .pointer (block.chunk + headerSize) ∧
        (allocator.malloc new nbytes).2.regions = allocator.regions) ∨
      (∀ block ∈ allocator.cachedBlocks, block.chunkSize < nbytes) ∧
        ((new (nbytes + headerSize) = none ∧ allocator.malloc new nbytes = (.threw, allocator)) ∨
        ∃ address, new (nbytes + headerSize) = some address ∧
          (allocator.malloc new nbytes).1 = .pointer (address + headerSize) ∧
          (allocator.malloc new nbytes).2.regions =
            allocator.regions ++ [{ address, bytes := nbytes + headerSize }]) := by
  have sound := run_sound (preallocated_sound preallocated small).1 run
  refine ⟨sound.sorted, sound.chunks_nodup, fun chunk => sound.balance.mem_iff, sound.heap.headers,
    ?_, ?_⟩
  · intro block member
    have bytes := sound.heap.headers _ (sound.cachedSizes block member)
    exact Nat.add_right_cancel bytes
  · intro new nbytes fresh enough
    have exact := size_with_word enough
    rcases sound.malloc_cases fresh nbytes with
      ⟨front, block, rest, whole, large, best, result⟩ | ⟨none, ⟨given, result⟩ | ⟨address, given, result⟩⟩
    · left
      rw [result]
      exact ⟨block, by rw [whole]; simp, large, best, rfl, rfl⟩
    · right
      rw [exact] at given
      exact ⟨none, Or.inl ⟨given, result⟩⟩
    · right
      rw [exact] at given
      refine ⟨none, Or.inr ⟨address, given, ?_⟩⟩
      rw [result, VariousMemoryAllocator.construct, exact]
      exact ⟨rfl, rfl⟩

def onePooled : VariousMemoryAllocator :=
  VariousMemoryAllocator.emplaceBack 4 1000
    { cachedBlocks := [], memory := fun _ => 0, regions := [], loans := [] }

theorem one_pooled_preallocated : Preallocated 4 1 onePooled := by
  have fresh : Fresh (fun _ => some 1000) [] := by
    intro bytes address given
    cases given
    exact ⟨by decide, fun _ member => absurd member List.not_mem_nil⟩
  exact .next (.none _) fresh rfl

theorem best_fit_cache_reused :
    let calls : List AllocatorCall := [.malloc 2, .store 1008 [7, 7], .free 1008]
    let allocator := calls.foldl (AllocatorCall.perform fun _ => none) onePooled
    (∀ block ∈ allocator.cachedBlocks, block.chunkSize = chunkHeader allocator.memory block.chunk) ∧
      allocator.cachedBlocks = [{ chunkSize := 4, chunk := 1000 }] := by
  intro calls allocator
  have noMemory : ∀ regions, Fresh (fun _ => none) regions := by
    intro regions bytes address given
    cases given
  have run : Run (Where Takes OfSmallSize) onePooled
      ([] ++ [⟨.malloc 2, fun _ => none⟩] ++ [⟨.store 1008 [7, 7], fun _ => none⟩] ++
        [⟨.free 1008, fun _ => none⟩]) allocator := by
    refine .next (.next (.next (.start _) ⟨⟨trivial, noMemory _, rfl⟩, by decide⟩)
      ⟨⟨?_, noMemory _, rfl⟩, by decide⟩) ⟨⟨?_, noMemory _, rfl⟩, by decide⟩
    · exact ⟨⟨1000, 2⟩, by decide, by decide, by decide⟩
    · exact Or.inr ⟨⟨1000, 2⟩, by decide, by decide⟩
  exact ⟨(best_fit_cache (fun _ => by decide) one_pooled_preallocated run).2.2.2.2.1, by decide⟩

end Sne.Base.VariousMemory
