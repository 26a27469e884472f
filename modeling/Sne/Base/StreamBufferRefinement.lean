import Sne.Base.MemoryBlock
import Sne.Core.VectorStreamBuffer

/-!
# Both stream buffers are queues

The buffer over a memory block moves its bytes when it is read and grows when it is
written, the vector buffer only ever drops its bytes when it is empty. No sequence of
calls tells either from a queue of bytes.
-/

namespace Sne.Base

open Sne.Core

set_option autoImplicit false

namespace MemoryBlockStreamBuffer

def create (initialSize : Nat) : MemoryBlockStreamBuffer :=
  { block := MemoryBlock.create initialSize
    valid := ⟨Nat.le_refl 0, Nat.zero_le _⟩ }

def Ordered (buffer : MemoryBlockStreamBuffer) : Prop :=
  buffer.block.rdPtr ≤ buffer.block.wrPtr ∧ buffer.block.wrPtr ≤ buffer.block.capacity

theorem create_contents (initialSize : Nat) : FifoBuffer.contents (create initialSize) = [] := rfl

end MemoryBlockStreamBuffer

def VectorOrdered (buffer : VectorStreamBuffer) : Prop :=
  buffer.readIndex ≤ buffer.writeIndex ∧ buffer.writeIndex = buffer.buffer.length

/-- The writes of the vector buffer may fail to make room; those of a block do not. -/
theorem stream_buffers_refine_queue (operations : List BufferOperation)
    (initialSize defaultCapacity : Nat) :
    RefinesQueue MemoryBlockStreamBuffer.Ordered operations (MemoryBlockStreamBuffer.create initialSize) ∧
      (NoGrowthError operations (VectorStreamBuffer.create defaultCapacity) →
        RefinesQueue VectorOrdered operations (VectorStreamBuffer.create defaultCapacity)) := by
  constructor
  · apply fifo_queue_like.refines
    · intro buffer _
      exact ⟨buffer.valid.ordered, buffer.valid.inside⟩
    · trivial
    · exact MemoryBlockStreamBuffer.create_contents initialSize
    · exact fifo_grows operations _
  · intro grows
    apply VectorStreamBuffer.queue_like.refines
    · intro buffer valid
      exact ⟨valid.ordered, valid.whole⟩
    · exact VectorStreamBuffer.reset_valid (VectorStreamBuffer.create defaultCapacity)
    · rfl
    · exact grows

theorem stream_buffers_refine_queue_growing :
    RefinesQueue VectorOrdered
      [.copyFrom [1, 2, 3], .copyTo 2, .copyFrom [4, 5], .copyTo 4, .pop, .copyTo 2, .push 6]
      (VectorStreamBuffer.create 4) :=
  (stream_buffers_refine_queue _ 0 4).2 (by decide)

end Sne.Base
