import Sne.Base.StreamBufferRefinement

/-!
# How far the vector buffer grows

`VectorStreamBuffer::reserve` doubles the capacity at most once for a write and throws
when that is too small, where `MemoryBlock::reserve` takes as much as is needed. The two
buffers behave alike as long as no write asks for more than twice the capacity.
-/

namespace Sne.Core.VectorStreamBuffer

open Sne.Library.Exec

set_option autoImplicit false

structure Spacious (buffer : VectorStreamBuffer) : Prop extends buffer.Valid where
  inside : buffer.writeIndex ≤ buffer.capacity
  positive : 0 < buffer.capacity

/-- Room for `count` more bytes after one doubling. -/
def HasRoom (count : Nat) (buffer : VectorStreamBuffer) : Prop :=
  buffer.writeIndex + count ≤ 2 * buffer.capacity

theorem create_spacious {defaultCapacity : Nat} (positive : 1 ≤ defaultCapacity) :
    (create defaultCapacity).Spacious where
  toValid := reset_valid (create defaultCapacity)
  inside := Nat.zero_le _
  positive := positive

theorem reserve_room {count : Nat} {buffer : VectorStreamBuffer} (spacious : buffer.Spacious)
    (room : buffer.HasRoom count) :
    ∃ capacity, Runs (reserve count) buffer () { buffer with capacity } ∧
      buffer.writeIndex + count ≤ capacity ∧ buffer.capacity ≤ capacity := by
  have inside := spacious.inside
  unfold HasRoom at room
  by_cases short : buffer.space < count
  · have doubled : buffer.reserveVector (buffer.capacity * 2) =
        { buffer with capacity := buffer.capacity * 2 } := by
      rw [reserveVector, Nat.max_eq_right (by omega)]
    have enough : ¬space { buffer with capacity := buffer.capacity * 2 } < count := by
      change ¬buffer.capacity * 2 - buffer.writeIndex < count
      omega
    refine ⟨buffer.capacity * 2, ?_, by omega, by omega⟩
    apply (runs_get buffer).bind
    rw [if_pos short, doubled]
    apply (runs_set buffer { buffer with capacity := buffer.capacity * 2 }).bind
    exact runs_require (by simpa using enough) _ _
  · refine ⟨buffer.capacity, ?_, ?_, Nat.le_refl _⟩
    · apply (runs_get buffer).bind
      rw [if_neg short]
      exact runs_pure _ _
    · unfold space at short
      omega

theorem reserve_no_room {count : Nat} {buffer : VectorStreamBuffer} (spacious : buffer.Spacious)
    (crowded : ¬buffer.HasRoom count) :
    Throws (reserve count) buffer (.streaming "out of memory")
      { buffer with capacity := buffer.capacity * 2 } := by
  have inside := spacious.inside
  unfold HasRoom at crowded
  have short : buffer.space < count := by
    unfold space
    omega
  have doubled : buffer.reserveVector (buffer.capacity * 2) =
      { buffer with capacity := buffer.capacity * 2 } := by
    rw [reserveVector, Nat.max_eq_right (by omega)]
  have still : space { buffer with capacity := buffer.capacity * 2 } < count := by
    change buffer.capacity * 2 - buffer.writeIndex < count
    omega
  apply (runs_get buffer).bind_throws
  rw [if_pos short, doubled]
  apply (runs_set buffer { buffer with capacity := buffer.capacity * 2 }).bind_throws
  exact throws_require (by simpa using still) _ _

theorem write_room {items : List UInt8} {buffer : VectorStreamBuffer} (spacious : buffer.Spacious)
    (room : buffer.HasRoom items.length) :
    ∃ next, Runs (copyFrom items) buffer () next ∧ next.Spacious ∧
      next.contents = buffer.contents ++ items := by
  have positive := spacious.positive
  rcases reserve_room spacious room with ⟨capacity, reserves, enough, grown⟩
  have writes : Runs (copyFrom items) buffer () { readIndex := buffer.readIndex
                                                  writeIndex := buffer.writeIndex + items.length
                                                  buffer := buffer.buffer ++ items
                                                  capacity } :=
    reserves.bind (runs_modify _ _)
  refine ⟨_, writes, ?_, write_contents spacious.toValid items writes⟩
  constructor
  · exact appended_valid spacious.toValid items capacity
  · exact enough
  · exact Nat.lt_of_lt_of_le positive grown

theorem write_no_room {items : List UInt8} {buffer : VectorStreamBuffer} (spacious : buffer.Spacious)
    (crowded : ¬buffer.HasRoom items.length) :
    Throws (copyFrom items) buffer (.streaming "out of memory")
      { buffer with capacity := buffer.capacity * 2 } :=
  (reserve_no_room spacious crowded).bind

/-- A single byte always has room. -/
theorem push_room {buffer : VectorStreamBuffer} (spacious : buffer.Spacious) : buffer.HasRoom 1 := by
  have inside := spacious.inside
  have positive := spacious.positive
  unfold HasRoom
  omega

theorem advance_read_spacious {buffer : VectorStreamBuffer} (spacious : buffer.Spacious) {count : Nat}
    (enough : count ≤ buffer.size) : (buffer.advanceRead count).Spacious := by
  have valid := advance_read_valid spacious.toValid enough
  unfold advanceRead at valid ⊢
  dsimp only at valid ⊢
  split at valid
  · rename_i none
    rw [if_pos none]
    exact ⟨valid, Nat.zero_le _, spacious.positive⟩
  · rename_i some
    rw [if_neg some]
    exact ⟨valid, spacious.inside, spacious.positive⟩

def written : BufferOperation → Nat
  | .push _ => 1
  | .copyFrom items => items.length
  | _ => 0

theorem write_spacious (items : List UInt8) {buffer : VectorStreamBuffer} (spacious : buffer.Spacious) :
    (BufferOperation.after (.copyFrom items) buffer).Spacious := by
  by_cases room : buffer.HasRoom items.length
  · rcases write_room spacious room with ⟨next, runs, nextSpacious, _⟩
    rw [(outcome_of_runs (.copyFrom items) (runs.bind (runs_pure [] _))).2]
    exact nextSpacious
  · rw [(outcome_of_throws (.copyFrom items) (write_no_room spacious room).bind).2]
    refine ⟨⟨spacious.ordered, spacious.whole⟩, ?_, ?_⟩
    · exact Nat.le_trans spacious.inside (Nat.le_mul_of_pos_right _ (by omega))
    · exact Nat.mul_pos spacious.positive (by omega)

theorem operation_spacious (operation : BufferOperation) {buffer : VectorStreamBuffer}
    (spacious : buffer.Spacious) : (operation.after buffer).Spacious := by
  cases operation with
  | push item => exact write_spacious [item] spacious
  | pop =>
      change (pop buffer).Spacious
      unfold pop
      split
      · rename_i some
        apply advance_read_spacious spacious
        have ordered := spacious.ordered
        simp only [empty, Bool.not_eq_true', beq_eq_false_iff_ne] at some
        unfold size
        omega
      · exact spacious
  | copyFrom items => exact write_spacious items spacious
  | copyTo count =>
      by_cases short : buffer.size < count
      · rw [(outcome_of_throws (.copyTo count) (copy_to_throws short)).2]
        exact spacious
      · rw [(outcome_of_runs (.copyTo count) (copy_to_runs (Nat.not_lt.mp short))).2]
        exact advance_read_spacious spacious (Nat.not_lt.mp short)
  | reset => exact ⟨reset_valid buffer, Nat.zero_le _, spacious.positive⟩

theorem last_spacious (operations : List BufferOperation) {buffer : VectorStreamBuffer}
    (spacious : buffer.Spacious) : (lastBuffer operations buffer).Spacious := by
  induction operations generalizing buffer with
  | nil => exact spacious
  | cons operation rest induction => exact induction (operation_spacious operation spacious)

/-- A call throws for want of room exactly if twice the capacity is not enough. -/
theorem write_throws_iff (operation : BufferOperation) {buffer : VectorStreamBuffer}
    (spacious : buffer.Spacious) (isWrite : operation.isWrite = true) :
    operation.outcome buffer = .threw ↔ ¬buffer.HasRoom (written operation) := by
  have copies : ∀ items : List UInt8, (BufferOperation.copyFrom items).outcome buffer = .threw ↔
      ¬buffer.HasRoom items.length := by
    intro items
    by_cases room : buffer.HasRoom items.length
    · rcases write_room spacious room with ⟨next, runs, _⟩
      rw [(outcome_of_runs (.copyFrom items) (runs.bind (runs_pure [] _))).1]
      exact iff_of_false (by simp) (not_not.mpr room)
    · rw [(outcome_of_throws (.copyFrom items) (write_no_room spacious room).bind).1]
      exact iff_of_true rfl room
  cases operation with
  | push item => exact copies [item]
  | copyFrom items => exact copies items
  | pop => cases isWrite
  | copyTo count => cases isWrite
  | reset => cases isWrite

/-- Each `copyFrom` of the calls finds room when it is made. -/
def AllFit : List BufferOperation → VectorStreamBuffer → Prop
  | [], _ => True
  | operation :: rest, buffer =>
      (∀ items, operation = .copyFrom items → buffer.HasRoom items.length) ∧
        AllFit rest (operation.after buffer)

theorem no_growth_error_iff (operations : List BufferOperation) {buffer : VectorStreamBuffer}
    (spacious : buffer.Spacious) : NoGrowthError operations buffer ↔ AllFit operations buffer := by
  induction operations generalizing buffer with
  | nil => exact ⟨fun _ => trivial, fun _ step member => absurd member List.not_mem_nil⟩
  | cons operation rest induction =>
      have later := induction (operation_spacious operation spacious)
      have first : (operation.isWrite = true → operation.outcome buffer ≠ .threw) ↔
          ∀ items, operation = .copyFrom items → buffer.HasRoom items.length := by
        constructor
        · rintro returns items rfl
          exact not_not.mp ((write_throws_iff _ spacious rfl).not.mp (returns rfl))
        · intro fits isWrite
          rw [ne_eq, write_throws_iff operation spacious isWrite, not_not]
          cases operation with
          | push item => exact push_room spacious
          | copyFrom items => exact fits items rfl
          | pop => cases isWrite
          | copyTo count => cases isWrite
          | reset => cases isWrite
      unfold NoGrowthError at later ⊢
      rw [behave, AllFit, List.forall_mem_cons, first, later]

end Sne.Core.VectorStreamBuffer

namespace Sne.Base

open Sne.Core Sne.Library.Exec

/-- After any calls, a push appends its byte, and `copyFrom` its bytes exactly if they fit into
twice the capacity. The calls show no difference to a buffer over a memory block exactly if
this holds of each of their writes. -/
theorem vector_buffer_grows_iff (defaultCapacity : Nat) (positive : 1 ≤ defaultCapacity)
    (operations : List BufferOperation) :
    let buffer := lastBuffer operations (VectorStreamBuffer.create defaultCapacity)
    (∀ item, ∃ next, Runs (VectorStreamBuffer.push item) buffer () next ∧
      next.contents = buffer.contents ++ [item]) ∧
    (∀ items, (∃ next, Runs (VectorStreamBuffer.copyFrom items) buffer () next ∧
        next.contents = buffer.contents ++ items) ↔
      buffer.writeIndex + items.length ≤ 2 * buffer.capacity) ∧
    ∀ initialSize, behave operations (VectorStreamBuffer.create defaultCapacity) =
        behave operations (MemoryBlockStreamBuffer.create initialSize) ↔
      VectorStreamBuffer.AllFit operations (VectorStreamBuffer.create defaultCapacity) := by
  intro buffer
  have start := VectorStreamBuffer.create_spacious positive
  have spacious : buffer.Spacious := VectorStreamBuffer.last_spacious operations start
  refine ⟨?_, ?_, ?_⟩
  · intro item
    have room : buffer.HasRoom [item].length := VectorStreamBuffer.push_room spacious
    rcases VectorStreamBuffer.write_room spacious room with ⟨next, runs, _, appended⟩
    exact ⟨next, runs, appended⟩
  · intro items
    constructor
    · rintro ⟨next, runs, _⟩
      by_contra crowded
      have throws := VectorStreamBuffer.write_no_room spacious crowded
      unfold Runs at runs
      unfold Throws at throws
      rw [runs] at throws
      cases throws
    · intro room
      rcases VectorStreamBuffer.write_room spacious room with ⟨next, runs, _, appended⟩
      exact ⟨next, runs, appended⟩
  · intro initialSize
    rw [← VectorStreamBuffer.no_growth_error_iff operations start]
    constructor
    · intro same
      unfold NoGrowthError
      rw [same]
      exact fifo_grows operations _
    · intro grows
      have vector := VectorStreamBuffer.queue_like.behave_eq operations start.toValid grows
      have block := fifo_queue_like.behave_eq operations trivial
        (fifo_grows operations (MemoryBlockStreamBuffer.create initialSize))
      rw [vector, block]
      rfl

theorem vector_buffer_grows_iff_eight : ∃ next, Runs (VectorStreamBuffer.copyFrom [4, 5, 6, 7, 8])
    (lastBuffer [.copyFrom [1, 2, 3]] (VectorStreamBuffer.create 4)) () next ∧
      next.contents = [1, 2, 3] ++ [4, 5, 6, 7, 8] :=
  ((vector_buffer_grows_iff 4 (by decide) [.copyFrom [1, 2, 3]]).2.1 [4, 5, 6, 7, 8]).mpr (by decide)

/-- Nine bytes are too many for a vector of four, and not for a block of four. -/
theorem nine_bytes_out_of_memory :
    BufferOperation.outcome (.copyFrom (List.replicate 9 0)) (VectorStreamBuffer.create 4) = .threw ∧
      BufferOperation.outcome (.copyFrom (List.replicate 9 0)) (MemoryBlockStreamBuffer.create 4) =
        .returned [] := by
  decide

end Sne.Base
