import Sne.Base.VariousMemoryAllocator

/-!
# Sizes that wrap

The size of a new chunk and the number of bytes of an array are computed modulo 2^64. What a
call is given is as large as it meant exactly if the size that it meant, with the word in
front, is a 64-bit number, or if the call fails.
-/

namespace Sne.Base.VariousMemory

open Sne.Library.ByteMemory Sne.Library.Runs

set_option autoImplicit false

namespace AllocatorCall

def returned (new : Nat → Option Nat) (allocator : VariousMemoryAllocator) : AllocatorCall → Returned
  | malloc nbytes => (allocator.malloc new nbytes).1
  | calloc nbytes initialValue => (allocator.calloc new nbytes initialValue).1
  | callocElements elements elementSize initialValue =>
      (allocator.callocElements new elements elementSize initialValue).1
  | free _ => .null
  | store _ _ => .null

def initialValue : AllocatorCall → Option UInt8
  | calloc _ value => some value
  | callocElements _ _ value => some value
  | _ => none

def allocates : AllocatorCall → Bool
  | free _ => false
  | store _ _ => false
  | _ => true

end AllocatorCall

/-- Behind the word at the pointer there are so many bytes. -/
def Usable (allocator : VariousMemoryAllocator) (ptr bytes : Nat) : Prop :=
  ∃ region ∈ allocator.regions, region.address + headerSize = ptr ∧ bytes + headerSize ≤ region.bytes

/-- The call fails, or gives as many bytes as it meant, all of them initialised. -/
def Delivers (new : Nat → Option Nat) (allocator : VariousMemoryAllocator) (call : AllocatorCall) :
    Prop :=
  ∀ ptr, call.returned new allocator = .pointer ptr →
    Usable (call.perform new allocator) ptr call.wanted ∧
    ∀ value, call.initialValue = some value →
      read (call.perform new allocator).memory ptr call.wanted = List.replicate call.wanted value

/-- Nothing that is cached is as large as the size that is computed, and there is no memory. -/
def Refused (new : Nat → Option Nat) (allocator : VariousMemoryAllocator) (call : AllocatorCall) :
    Prop :=
  (∀ block ∈ allocator.cachedBlocks, block.chunkSize < call.asked) ∧
    new (sizeT (call.asked + headerSize)) = none

section Calls

variable {allocator : VariousMemoryAllocator} {new : Nat → Option Nat}

theorem calloc_pointer (nbytes : Nat) (initialValue : UInt8) {ptr : Nat}
    (returned : (allocator.calloc new nbytes initialValue).1 = .pointer ptr) :
    ∃ next, allocator.malloc new nbytes = (.pointer ptr, next) ∧
      (allocator.calloc new nbytes initialValue).2 =
        next.store ptr (List.replicate nbytes initialValue) := by
  cases result : allocator.malloc new nbytes with
  | mk given next =>
      cases given with
      | threw =>
          simp only [VariousMemoryAllocator.calloc, result] at returned
          cases returned
      | null =>
          simp only [VariousMemoryAllocator.calloc, result] at returned
          cases returned
      | pointer other =>
          simp only [VariousMemoryAllocator.calloc, result] at returned ⊢
          cases returned
          exact ⟨next, rfl, rfl⟩

theorem returned_malloc {call : AllocatorCall} (allocates : call.allocates = true) {ptr : Nat}
    (returned : call.returned new allocator = .pointer ptr) :
    ∃ next, allocator.malloc new call.asked = (.pointer ptr, next) ∧
      (call.perform new allocator).regions = next.regions ∧
      (call.initialValue = none ∧ call.perform new allocator = next ∨
        ∃ value, call.initialValue = some value ∧
          call.perform new allocator = next.store ptr (List.replicate call.asked value)) := by
  have initialised : ∀ nbytes value, (allocator.calloc new nbytes value).1 = .pointer ptr →
      ∃ next, allocator.malloc new nbytes = (.pointer ptr, next) ∧
        (allocator.calloc new nbytes value).2.regions = next.regions ∧
        (allocator.calloc new nbytes value).2 = next.store ptr (List.replicate nbytes value) := by
    intro nbytes value given
    rcases calloc_pointer nbytes value given with ⟨next, result, stored⟩
    refine ⟨next, result, ?_, stored⟩
    rw [stored]
    rfl
  cases call with
  | malloc nbytes =>
      refine ⟨(allocator.malloc new nbytes).2, ?_, rfl, Or.inl ⟨rfl, rfl⟩⟩
      rw [← returned]
      rfl
  | calloc nbytes value =>
      rcases initialised nbytes value returned with ⟨next, result, regions, stored⟩
      exact ⟨next, result, regions, Or.inr ⟨value, rfl, stored⟩⟩
  | callocElements elements elementSize value =>
      rcases initialised (sizeT (elements * elementSize)) value returned with
        ⟨next, result, regions, stored⟩
      exact ⟨next, result, regions, Or.inr ⟨value, rfl, stored⟩⟩
  | free ptr => cases allocates
  | store address bytes => cases allocates

theorem malloc_returned {call : AllocatorCall} (allocates : call.allocates = true) {ptr : Nat}
    {next : VariousMemoryAllocator} (result : allocator.malloc new call.asked = (.pointer ptr, next)) :
    call.returned new allocator = .pointer ptr := by
  cases call with
  | malloc nbytes => exact congrArg Prod.fst result
  | calloc nbytes value =>
      simp only [AllocatorCall.asked] at result
      simp only [AllocatorCall.returned, VariousMemoryAllocator.calloc, result]
  | callocElements elements elementSize value =>
      simp only [AllocatorCall.asked] at result
      simp only [AllocatorCall.returned, VariousMemoryAllocator.callocElements,
        VariousMemoryAllocator.calloc, result]
  | free ptr => cases allocates
  | store address bytes => cases allocates

theorem refused_fails (sound : Sound allocator) (fresh : Fresh new allocator.regions)
    {call : AllocatorCall} (allocates : call.allocates = true) (refused : Refused new allocator call) :
    ∀ ptr, call.returned new allocator ≠ .pointer ptr := by
  intro ptr returned
  rcases returned_malloc allocates returned with ⟨next, result, _⟩
  rcases sound.malloc_cases fresh call.asked with
    ⟨front, block, rest, whole, large, _⟩ | ⟨_, ⟨_, threw⟩ | ⟨address, given, _⟩⟩
  · have small := refused.1 block (by rw [whole]; simp)
    omega
  · rw [threw] at result
    cases result
  · rw [refused.2] at given
    cases given

/-- All regions are smaller than 2^64 bytes, also one of a size that wrapped. -/
theorem malloc_regions (sound : Sound allocator) (fresh : Fresh new allocator.regions) {nbytes ptr : Nat}
    {next : VariousMemoryAllocator} (result : allocator.malloc new nbytes = (.pointer ptr, next)) :
    ∀ region ∈ next.regions, region.bytes < 18446744073709551616 := by
  rcases sound.malloc_cases fresh nbytes with
    ⟨front, block, rest, _, _, _, cached⟩ | ⟨_, ⟨_, threw⟩ | ⟨address, _, given⟩⟩
  · rw [cached] at result
    cases result
    exact sound.heap.bounded
  · rw [threw] at result
    cases result
  · rw [given] at result
    cases result
    intro region member
    rcases List.mem_append.mp member with old | new
    · exact sound.heap.bounded region old
    · rw [List.mem_singleton.mp new]
      dsimp only
      exact size_t_lt _

/-- Without overflow the loan that `malloc` makes has the bytes that were meant. -/
theorem small_delivers (sound : Sound allocator) (fresh : Fresh new allocator.regions)
    {call : AllocatorCall} (allocates : call.allocates = true) (small : SmallEnough call) :
    Delivers new allocator call := by
  intro ptr returned
  have asked := small_asked small
  rcases returned_malloc allocates returned with ⟨next, result, regions, performed⟩
  have malloced := sound.malloced fresh (small_computed small new)
  rw [result] at malloced
  rcases sound.malloc_lends fresh result with ⟨loan, member, size, place⟩
  rcases malloced.loan_region member with ⟨region, known, same, enough⟩
  constructor
  · refine ⟨region, by rw [regions]; exact known, by rw [same, place], ?_⟩
    rw [size, asked] at enough
    exact enough
  · intro value initial
    rcases performed with ⟨none, _⟩ | ⟨other, some, stored⟩
    · rw [none] at initial
      cases initial
    · rw [some] at initial
      cases initial
      rw [stored, asked]
      exact read_write _ _ (List.length_replicate ..)

/-- What a call is given is as large as it meant, exactly if the size does not overflow or the call is
refused. -/
theorem delivers_iff (sound : Sound allocator) (fresh : Fresh new allocator.regions)
    {call : AllocatorCall} (allocates : call.allocates = true) :
    Delivers new allocator call ↔ SmallEnough call ∨ Refused new allocator call := by
  constructor
  · intro delivers
    have large : ∀ {ptr next}, allocator.malloc new call.asked = (.pointer ptr, next) →
        SmallEnough call := by
      intro ptr next result
      have returned := malloc_returned allocates result
      rcases returned_malloc allocates returned with ⟨after, again, regions, _⟩
      rcases (delivers ptr returned).1 with ⟨region, known, _, enough⟩
      rw [regions] at known
      exact Nat.lt_of_le_of_lt enough (malloc_regions sound fresh again region known)
    rcases sound.malloc_cases fresh call.asked with
      ⟨front, block, rest, _, _, _, result⟩ | ⟨none, ⟨given, _⟩ | ⟨address, _, result⟩⟩
    · exact Or.inl (large result)
    · exact Or.inr ⟨none, given⟩
    · exact Or.inl (large result)
  · rintro (small | refused)
    · exact small_delivers sound fresh allocates small
    · intro ptr returned
      exact absurd returned (refused_fails sound fresh allocates refused ptr)

end Calls

/-- Each call for memory is of a size that does not overflow, or is refused. -/
def Answerable (allocator : VariousMemoryAllocator) (event : AllocatorEvent) : Prop :=
  event.call.allocates = true → SmallEnough event.call ∨ Refused event.new allocator event.call

theorem asks_nothing {call : AllocatorCall} (none : ¬call.allocates = true) : call.asked = 0 := by
  cases call with
  | malloc nbytes => exact absurd rfl none
  | calloc nbytes value => exact absurd rfl none
  | callocElements elements elementSize value => exact absurd rfl none
  | free ptr => rfl
  | store address bytes => rfl

theorem answerable_computed {allocator : VariousMemoryAllocator} {event : AllocatorEvent}
    (answerable : Answerable allocator event) : Sound.Computed event.new event.call.asked := by
  by_cases allocates : event.call.allocates = true
  · rcases answerable allocates with small | refused
    · exact small_computed small event.new
    · exact Or.inr refused.2
  · left
    rw [asks_nothing allocates]
    decide

/-- After any calls that meet the condition, a call fails or gives as many bytes as it meant,
initialised if it is a `calloc`, exactly if it meets the condition as well. -/
theorem allocation_sizes_iff {chunkSize poolSize : Nat} {start allocator : VariousMemoryAllocator}
    {events : List AllocatorEvent} (small : 0 < poolSize → chunkSize + headerSize < 18446744073709551616)
    (preallocated : Preallocated chunkSize poolSize start)
    (run : Run (Where Takes Answerable) start events allocator) {new : Nat → Option Nat}
    (fresh : Fresh new allocator.regions) {call : AllocatorCall} (allocates : call.allocates = true) :
    Delivers new allocator call ↔
      call.wanted + headerSize < 18446744073709551616 ∨ Refused new allocator call := by
  have sound : Sound allocator := by
    apply run.invariant (fun _ allocator => Sound allocator) (preallocated_sound preallocated small).1
    rintro _ state event _ before ⟨⟨permitted, answers, rfl⟩, answerable⟩
    exact call_sound before answers permitted (answerable_computed answerable)
  exact delivers_iff sound fresh allocates

theorem allocation_sizes_iff_four :
    Delivers (fun _ => none) onePooled (.callocElements 2 2 0) := by
  have noMemory : Fresh (fun _ => none) onePooled.regions := by
    intro bytes address given
    cases given
  exact (allocation_sizes_iff (fun _ => by decide) one_pooled_preallocated (.start _) noMemory rfl).mpr
    (Or.inl (by decide))

/-- The product of 2^32 and 2^32 wraps to 0 and is served by the chunk of four bytes; the size of
2^64 - 1 bytes and the word wraps to 7. -/
theorem wrapped_sizes_served :
    ¬Delivers (fun _ => none) onePooled (.callocElements 4294967296 4294967296 0) ∧
      ¬Delivers (fun _ => some 2000) onePooled (.malloc 18446744073709551615) := by
  constructor
  · intro delivers
    rcases (delivers 1008 (by decide)).1 with ⟨region, known, _, enough⟩
    have only : region = ⟨1000, 12⟩ := List.mem_singleton.mp known
    rw [only] at enough
    exact absurd enough (by decide)
  · intro delivers
    rcases (delivers 2008 (by decide)).1 with ⟨region, known, _, enough⟩
    have sizes : ∀ region ∈ (AllocatorCall.perform (fun _ => some 2000) onePooled
        (.malloc 18446744073709551615)).regions, region.bytes ≤ 12 := by
      decide
    have bound := sizes region known
    simp only [AllocatorCall.wanted] at enough
    omega

end Sne.Base.VariousMemory
