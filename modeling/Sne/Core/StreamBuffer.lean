import Sne.Library.Exec

/-!
# Stream buffers

`sne::core::StreamBuffer` is an interface. Its header asks that it behave like
`std::queue` and report failures with `StreamingException`. The class below has
the operations of the interface; `FifoBuffer` adds what the header promises,
for buffers whose writes do not throw.
-/

namespace Sne.Core

open Sne.Library.Exec

set_option autoImplicit false

/-- The exceptions the modelled code throws, with the text it gives them. -/
inductive Exception where
  | streaming (what : String)
  | unknownRpcMethod (what : String)
  deriving DecidableEq, Repr

/-- A member function that may throw: the state survives the exception. -/
abbrev StreamM (σ α : Type) := EStateM Exception σ α

class StreamBuffer (β : Type) where
  push : UInt8 → StreamM β Unit
  pop : β → β
  copyFrom : List UInt8 → StreamM β Unit
  copyTo : Nat → StreamM β (List UInt8)
  reset : β → β
  front : β → UInt8
  back : β → UInt8
  /-- Assignment through the reference that `back()` returns. -/
  setBack : UInt8 → β → β
  size : β → Nat
  empty : β → Bool

/-- A stream buffer that is a first-in first-out queue of bytes and whose writes
succeed. `contents` lists the queued bytes, oldest first. -/
class FifoBuffer (β : Type) extends StreamBuffer β where
  contents : β → List UInt8
  push_runs : ∀ item buffer, ∃ after,
    Runs (push item) buffer () after ∧ contents after = contents buffer ++ [item]
  pop_contents : ∀ buffer, contents (pop buffer) = (contents buffer).tail
  copyFrom_runs : ∀ items buffer, ∃ after,
    Runs (copyFrom items) buffer () after ∧ contents after = contents buffer ++ items
  copyTo_runs : ∀ count buffer, count ≤ (contents buffer).length → ∃ after,
    Runs (copyTo count) buffer ((contents buffer).take count) after ∧
      contents after = (contents buffer).drop count
  copyTo_throws : ∀ count buffer, (contents buffer).length < count → ∃ e,
    Throws (copyTo count) buffer e buffer
  reset_contents : ∀ buffer, contents (reset buffer) = []
  front_contents : ∀ buffer item rest, contents buffer = item :: rest → front buffer = item
  back_contents : ∀ buffer init item, contents buffer = init ++ [item] → back buffer = item
  setBack_contents : ∀ buffer init old item, contents buffer = init ++ [old] →
    contents (setBack item buffer) = init ++ [item]
  size_contents : ∀ buffer, size buffer = (contents buffer).length
  empty_contents : ∀ buffer, empty buffer = (contents buffer).isEmpty

/-- The queue itself, the buffer the interface describes. -/
structure ByteQueue where
  items : List UInt8
  deriving DecidableEq, Repr

instance : StreamBuffer ByteQueue where
  push item := modify fun queue => ⟨queue.items ++ [item]⟩
  pop queue := ⟨queue.items.tail⟩
  copyFrom items := modify fun queue => ⟨queue.items ++ items⟩
  copyTo count := do
    let queue ← get
    require (decide (count ≤ queue.items.length)) (.streaming "buffer is corrupted")
    set (ByteQueue.mk (queue.items.drop count))
    pure (queue.items.take count)
  reset _ := ⟨[]⟩
  front queue := queue.items.headD 0
  back queue := queue.items.getLastD 0
  setBack item queue := ⟨queue.items.dropLast ++ [item]⟩
  size queue := queue.items.length
  empty queue := queue.items.isEmpty

instance : FifoBuffer ByteQueue where
  contents queue := queue.items
  push_runs item queue := ⟨_, runs_modify _ queue, rfl⟩
  pop_contents _ := rfl
  copyFrom_runs items queue := ⟨_, runs_modify _ queue, rfl⟩
  copyTo_runs count queue enough :=
    ⟨⟨queue.items.drop count⟩, (runs_get _).bind ((runs_require (by simpa using enough) _ _).bind
      ((runs_set _ _).bind (runs_pure _ _))), rfl⟩
  copyTo_throws count queue short :=
    ⟨_, (runs_get _).bind_throws (throws_require (by simpa using short) _ _).bind⟩
  reset_contents _ := rfl
  front_contents queue item rest same := by simp [StreamBuffer.front, same]
  back_contents queue init item same := by simp [StreamBuffer.back, same]
  setBack_contents queue init old item same := by simp [StreamBuffer.setBack, same]
  size_contents _ := rfl
  empty_contents _ := rfl

end Sne.Core
