import Sne.Core.StreamBuffer

/-!
# Buffers as queues, and the vector buffer

A sequence of calls on a stream buffer is compared with the same calls on the queue
that the interface describes. The second part is `VectorStreamBuffer.h`, whose writes
fail when twice the capacity is still too small.
-/

namespace Sne.Core

open Sne.Library.Exec

set_option autoImplicit false

inductive BufferOperation where
  | push (item : UInt8)
  | pop
  | copyFrom (items : List UInt8)
  | copyTo (count : Nat)
  | reset
  deriving DecidableEq, Repr

/-- What a call gives back: the bytes of `copyTo`, none for the others, or an exception. -/
inductive Outcome where
  | returned (bytes : List UInt8)
  | threw
  deriving DecidableEq, Repr

/-- What the buffer says of itself. An empty one may not be asked for its ends. -/
structure BufferView where
  front : Option UInt8
  back : Option UInt8
  size : Nat
  empty : Bool
  deriving DecidableEq, Repr

structure BufferStep where
  operation : BufferOperation
  outcome : Outcome
  view : BufferView
  deriving DecidableEq, Repr

section Calls

variable {β : Type} [StreamBuffer β]

def BufferView.of (buffer : β) : BufferView :=
  { front := if StreamBuffer.empty buffer then none else some (StreamBuffer.front buffer)
    back := if StreamBuffer.empty buffer then none else some (StreamBuffer.back buffer)
    size := StreamBuffer.size buffer
    empty := StreamBuffer.empty buffer }

namespace BufferOperation

def perform : BufferOperation → StreamM β (List UInt8)
  | push item => do
      StreamBuffer.push item
      pure []
  | pop => do
      modify StreamBuffer.pop
      pure []
  | copyFrom items => do
      StreamBuffer.copyFrom items
      pure []
  | copyTo count => StreamBuffer.copyTo count
  | reset => do
      modify StreamBuffer.reset
      pure []

def outcome (operation : BufferOperation) (buffer : β) : Outcome :=
  match operation.perform buffer with
  | .ok bytes _ => .returned bytes
  | .error _ _ => .threw

def after (operation : BufferOperation) (buffer : β) : β :=
  match operation.perform buffer with
  | .ok _ next => next
  | .error _ next => next

def isWrite : BufferOperation → Bool
  | push _ => true
  | copyFrom _ => true
  | _ => false

end BufferOperation

def behave : List BufferOperation → β → List BufferStep
  | [], _ => []
  | operation :: rest, buffer =>
      { operation
        outcome := operation.outcome buffer
        view := .of (operation.after buffer) } :: behave rest (operation.after buffer)

def lastBuffer : List BufferOperation → β → β
  | [], buffer => buffer
  | operation :: rest, buffer => lastBuffer rest (operation.after buffer)

def NoGrowthError (operations : List BufferOperation) (buffer : β) : Prop :=
  ∀ step ∈ behave operations buffer, step.operation.isWrite = true → step.outcome ≠ .threw

instance (operations : List BufferOperation) (buffer : β) :
    Decidable (NoGrowthError operations buffer) :=
  inferInstanceAs (Decidable (∀ step ∈ behave operations buffer,
    step.operation.isWrite = true → step.outcome ≠ .threw))

theorem outcome_of_runs (operation : BufferOperation) {buffer next : β} {bytes : List UInt8}
    (runs : Runs operation.perform buffer bytes next) :
    operation.outcome buffer = .returned bytes ∧ operation.after buffer = next := by
  unfold Runs at runs
  simp only [BufferOperation.outcome, BufferOperation.after, runs, and_self]

theorem outcome_of_throws (operation : BufferOperation) {buffer next : β} {e : Exception}
    (throws : Throws operation.perform buffer e next) :
    operation.outcome buffer = .threw ∧ operation.after buffer = next := by
  unfold Throws at throws
  simp only [BufferOperation.outcome, BufferOperation.after, throws, and_self]

/-- A buffer that is a queue as long as it is valid. Its writes may fail. -/
structure QueueLike (Valid : β → Prop) (contents : β → List UInt8) : Prop where
  kept : ∀ (operation : BufferOperation) (buffer : β), Valid buffer → Valid (operation.after buffer)
  push_appends : ∀ item buffer next, Valid buffer → Runs (StreamBuffer.push item) buffer () next →
    contents next = contents buffer ++ [item]
  copyFrom_appends : ∀ items buffer next, Valid buffer →
    Runs (StreamBuffer.copyFrom items) buffer () next → contents next = contents buffer ++ items
  pop_contents : ∀ buffer, Valid buffer → contents (StreamBuffer.pop buffer) = (contents buffer).tail
  copyTo_runs : ∀ count buffer, Valid buffer → count ≤ (contents buffer).length → ∃ next,
    Runs (StreamBuffer.copyTo count) buffer ((contents buffer).take count) next ∧
      contents next = (contents buffer).drop count
  copyTo_throws : ∀ count buffer, Valid buffer → (contents buffer).length < count → ∃ e,
    Throws (StreamBuffer.copyTo count) buffer e buffer
  reset_contents : ∀ buffer, Valid buffer → contents (StreamBuffer.reset buffer) = []
  front_contents : ∀ buffer item rest, Valid buffer → contents buffer = item :: rest →
    StreamBuffer.front buffer = item
  back_contents : ∀ buffer init item, Valid buffer → contents buffer = init ++ [item] →
    StreamBuffer.back buffer = item
  size_contents : ∀ buffer, Valid buffer → StreamBuffer.size buffer = (contents buffer).length
  empty_contents : ∀ buffer, Valid buffer → StreamBuffer.empty buffer = (contents buffer).isEmpty

namespace QueueLike

variable {Valid : β → Prop} {contents : β → List UInt8} (like : QueueLike Valid contents)

include like

theorem view_eq {buffer : β} (valid : Valid buffer) :
    BufferView.of buffer = BufferView.of (ByteQueue.mk (contents buffer)) := by
  have sizes := like.size_contents buffer valid
  have empties := like.empty_contents buffer valid
  unfold BufferView.of
  rw [sizes, empties]
  rcases List.eq_nil_or_concat (contents buffer) with none | ⟨init, last, whole⟩
  · rw [none]
    rfl
  · rw [List.concat_eq_append] at whole
    have backs := like.back_contents buffer init last valid whole
    have queueBack : StreamBuffer.back (ByteQueue.mk (contents buffer)) = last :=
      FifoBuffer.back_contents _ init last whole
    obtain ⟨first, rest, split⟩ : ∃ first rest, contents buffer = first :: rest :=
      List.exists_cons_of_ne_nil (by rw [whole]; simp)
    have fronts := like.front_contents buffer first rest valid split
    have queueFront : StreamBuffer.front (ByteQueue.mk (contents buffer)) = first :=
      FifoBuffer.front_contents _ first rest split
    rw [fronts, backs, queueFront, queueBack]
    rfl

/-- One call does to the contents what it does to the queue. -/
theorem operation_matches (operation : BufferOperation) {buffer : β} (valid : Valid buffer)
    (grows : operation.isWrite = true → operation.outcome buffer ≠ .threw) :
    operation.outcome buffer = operation.outcome (ByteQueue.mk (contents buffer)) ∧
      ByteQueue.mk (contents (operation.after buffer)) =
        operation.after (ByteQueue.mk (contents buffer)) := by
  cases operation with
  | push item =>
      have returned := grows rfl
      cases result : (StreamBuffer.push item : StreamM β Unit) buffer with
      | ok _ next =>
          have runs : Runs (StreamBuffer.push item) buffer () next := result
          rcases outcome_of_runs (.push item) (runs.bind (runs_pure [] next)) with
            ⟨outcome, after⟩
          rw [outcome, after, like.push_appends item buffer next valid runs]
          exact ⟨rfl, rfl⟩
      | error e next =>
          have throws : Throws (StreamBuffer.push item) buffer e next := result
          exact absurd (outcome_of_throws (.push item) throws.bind).1 returned
  | pop =>
      refine ⟨rfl, ?_⟩
      change ByteQueue.mk (contents (StreamBuffer.pop buffer)) = _
      rw [like.pop_contents buffer valid]
      rfl
  | copyFrom items =>
      have returned := grows rfl
      cases result : (StreamBuffer.copyFrom items : StreamM β Unit) buffer with
      | ok _ next =>
          have runs : Runs (StreamBuffer.copyFrom items) buffer () next := result
          rcases outcome_of_runs (.copyFrom items) (runs.bind (runs_pure [] next)) with
            ⟨outcome, after⟩
          rw [outcome, after, like.copyFrom_appends items buffer next valid runs]
          exact ⟨rfl, rfl⟩
      | error e next =>
          have throws : Throws (StreamBuffer.copyFrom items) buffer e next := result
          exact absurd (outcome_of_throws (.copyFrom items) throws.bind).1 returned
  | copyTo count =>
      by_cases enough : count ≤ (contents buffer).length
      · rcases like.copyTo_runs count buffer valid enough with ⟨next, runs, left⟩
        rcases FifoBuffer.copyTo_runs count (ByteQueue.mk (contents buffer)) enough with
          ⟨queueNext, queueRuns, queueLeft⟩
        rcases outcome_of_runs (.copyTo count) runs with ⟨outcome, after⟩
        rcases outcome_of_runs (.copyTo count) queueRuns with ⟨queueOutcome, queueAfter⟩
        rw [outcome, after, queueOutcome, queueAfter, left]
        exact ⟨rfl, congrArg ByteQueue.mk queueLeft.symm⟩
      · rcases like.copyTo_throws count buffer valid (by omega) with ⟨e, throws⟩
        rcases FifoBuffer.copyTo_throws count (ByteQueue.mk (contents buffer))
          (Nat.not_le.mp enough) with ⟨queueError, queueThrows⟩
        rcases outcome_of_throws (.copyTo count) throws with ⟨outcome, after⟩
        rcases outcome_of_throws (.copyTo count) queueThrows with ⟨queueOutcome, queueAfter⟩
        rw [outcome, after, queueOutcome, queueAfter]
        exact ⟨rfl, rfl⟩
  | reset =>
      refine ⟨rfl, ?_⟩
      change ByteQueue.mk (contents (StreamBuffer.reset buffer)) = _
      rw [like.reset_contents buffer valid]
      rfl

theorem behave_eq (operations : List BufferOperation) {buffer : β} (valid : Valid buffer)
    (grows : NoGrowthError operations buffer) :
    behave operations buffer = behave operations (ByteQueue.mk (contents buffer)) := by
  induction operations generalizing buffer with
  | nil => rfl
  | cons operation rest induction =>
      have first := grows _ List.mem_cons_self
      have next := like.kept operation buffer valid
      rcases like.operation_matches operation valid first with ⟨outcome, after⟩
      have others := induction next fun step member => grows step (List.mem_cons_of_mem _ member)
      rw [behave, behave, others, like.view_eq next, outcome, after]

theorem last_valid (operations : List BufferOperation) {buffer : β} (valid : Valid buffer) :
    Valid (lastBuffer operations buffer) := by
  induction operations generalizing buffer with
  | nil => exact valid
  | cons operation rest induction => exact induction (like.kept operation buffer valid)

end QueueLike

/-- The calls give back and leave behind what they do on an empty queue. In the last state
the positions are in order, and a `copyTo` beyond the size throws and changes nothing. -/
structure RefinesQueue (Ordered : β → Prop) (operations : List BufferOperation) (start : β) : Prop where
  behaviour : behave operations start = behave operations (ByteQueue.mk [])
  ordered : Ordered (lastBuffer operations start)
  beyond : ∀ count, StreamBuffer.size (lastBuffer operations start) < count → ∃ e,
    Throws (StreamBuffer.copyTo count) (lastBuffer operations start) e (lastBuffer operations start)

theorem QueueLike.refines {Valid Ordered : β → Prop} {contents : β → List UInt8}
    (like : QueueLike Valid contents) (orders : ∀ buffer, Valid buffer → Ordered buffer)
    (operations : List BufferOperation) {start : β} (valid : Valid start) (fresh : contents start = [])
    (grows : NoGrowthError operations start) : RefinesQueue Ordered operations start := by
  have last := like.last_valid operations valid
  constructor
  · rw [like.behave_eq operations valid grows, fresh]
  · exact orders _ last
  · intro count beyond
    rw [like.size_contents _ last] at beyond
    exact like.copyTo_throws count _ last beyond

end Calls

section Fifo

variable {β : Type} [FifoBuffer β]

theorem fifo_queue_like : QueueLike (fun _ : β => True) FifoBuffer.contents where
  kept _ _ _ := trivial
  push_appends item buffer next _ runs := by
    rcases FifoBuffer.push_runs item buffer with ⟨after, pushed, appended⟩
    rcases pushed.unique runs with ⟨_, rfl⟩
    exact appended
  copyFrom_appends items buffer next _ runs := by
    rcases FifoBuffer.copyFrom_runs items buffer with ⟨after, copied, appended⟩
    rcases copied.unique runs with ⟨_, rfl⟩
    exact appended
  pop_contents buffer _ := FifoBuffer.pop_contents buffer
  copyTo_runs count buffer _ enough := FifoBuffer.copyTo_runs count buffer enough
  copyTo_throws count buffer _ short := FifoBuffer.copyTo_throws count buffer short
  reset_contents buffer _ := FifoBuffer.reset_contents buffer
  front_contents buffer item rest _ split := FifoBuffer.front_contents buffer item rest split
  back_contents buffer init item _ split := FifoBuffer.back_contents buffer init item split
  size_contents buffer _ := FifoBuffer.size_contents buffer
  empty_contents buffer _ := FifoBuffer.empty_contents buffer

theorem fifo_grows (operations : List BufferOperation) (buffer : β) :
    NoGrowthError operations buffer := by
  induction operations generalizing buffer with
  | nil =>
      intro step member
      cases member
  | cons operation rest induction =>
      intro step member isWrite threw
      rcases List.mem_cons.mp member with rfl | later
      · cases operation with
        | push item =>
            rcases FifoBuffer.push_runs item buffer with ⟨after, pushed, _⟩
            rw [(outcome_of_runs (.push item) (pushed.bind (runs_pure [] after))).1] at threw
            cases threw
        | copyFrom items =>
            rcases FifoBuffer.copyFrom_runs items buffer with ⟨after, copied, _⟩
            rw [(outcome_of_runs (.copyFrom items) (copied.bind (runs_pure [] after))).1] at threw
            cases threw
        | pop => cases isWrite
        | copyTo count => cases isWrite
        | reset => cases isWrite
      · exact induction _ step later isWrite threw

end Fifo

/-- `capacity` is that of the vector. -/
structure VectorStreamBuffer where
  readIndex : Nat
  writeIndex : Nat
  buffer : List UInt8
  capacity : Nat
  deriving DecidableEq, Repr

namespace VectorStreamBuffer

def create (defaultCapacity : Nat) : VectorStreamBuffer :=
  { readIndex := 0, writeIndex := 0, buffer := [], capacity := defaultCapacity }

def size (buffer : VectorStreamBuffer) : Nat := buffer.writeIndex - buffer.readIndex

def empty (buffer : VectorStreamBuffer) : Bool := buffer.writeIndex == buffer.readIndex

def space (buffer : VectorStreamBuffer) : Nat := buffer.capacity - buffer.writeIndex

def reset (buffer : VectorStreamBuffer) : VectorStreamBuffer :=
  { buffer with readIndex := 0, writeIndex := 0, buffer := [] }

/-- `buffer_.reserve(n)`, which never shrinks the vector. -/
def reserveVector (n : Nat) (buffer : VectorStreamBuffer) : VectorStreamBuffer :=
  { buffer with capacity := max buffer.capacity n }

def reserve (neededSize : Nat) : StreamM VectorStreamBuffer Unit := do
  let buffer ← get
  if buffer.space < neededSize then do
    set (buffer.reserveVector (buffer.capacity * 2))
    require (!decide ((buffer.reserveVector (buffer.capacity * 2)).space < neededSize))
      (.streaming "out of memory")
  else
    pure ()

def copyFrom (items : List UInt8) : StreamM VectorStreamBuffer Unit := do
  reserve items.length
  modify fun buffer =>
    { buffer with buffer := buffer.buffer ++ items, writeIndex := buffer.writeIndex + items.length }

def push (item : UInt8) : StreamM VectorStreamBuffer Unit := do
  reserve 1
  modify fun buffer =>
    { buffer with buffer := buffer.buffer ++ [item], writeIndex := buffer.writeIndex + 1 }

def advanceRead (count : Nat) (buffer : VectorStreamBuffer) : VectorStreamBuffer :=
  let buffer := { buffer with readIndex := buffer.readIndex + count }
  if buffer.empty then buffer.reset else buffer

def pop (buffer : VectorStreamBuffer) : VectorStreamBuffer :=
  if !buffer.empty then buffer.advanceRead 1 else buffer

def copyTo (bufferSize : Nat) : StreamM VectorStreamBuffer (List UInt8) := do
  let buffer ← get
  require (!decide (buffer.size < bufferSize)) (.streaming "buffer is corrupted")
  set (buffer.advanceRead bufferSize)
  pure ((buffer.buffer.drop buffer.readIndex).take bufferSize)

instance : StreamBuffer VectorStreamBuffer where
  push := push
  pop := pop
  copyFrom := copyFrom
  copyTo := copyTo
  reset := reset
  front buffer := buffer.buffer.getD buffer.readIndex 0
  back buffer := buffer.buffer.getD (buffer.writeIndex - 1) 0
  setBack item buffer := { buffer with buffer := buffer.buffer.set (buffer.writeIndex - 1) item }
  size := size
  empty := empty

def contents (buffer : VectorStreamBuffer) : List UInt8 := buffer.buffer.drop buffer.readIndex

structure Valid (buffer : VectorStreamBuffer) : Prop where
  ordered : buffer.readIndex ≤ buffer.writeIndex
  whole : buffer.writeIndex = buffer.buffer.length

theorem contents_length {buffer : VectorStreamBuffer} (valid : buffer.Valid) :
    buffer.contents.length = buffer.size := by
  rw [contents, List.length_drop, size, valid.whole]

theorem empty_iff {buffer : VectorStreamBuffer} (valid : buffer.Valid) :
    buffer.empty = buffer.contents.isEmpty := by
  have ordered := valid.ordered
  have length := contents_length valid
  rw [Bool.eq_iff_iff, List.isEmpty_iff, ← List.length_eq_zero_iff, length, empty, beq_iff_eq, size]
  omega

theorem reserve_cases (neededSize : Nat) (buffer : VectorStreamBuffer) :
    ∃ capacity, Runs (reserve neededSize) buffer () { buffer with capacity } ∨
      Throws (reserve neededSize) buffer (.streaming "out of memory") { buffer with capacity } := by
  by_cases short : buffer.space < neededSize
  · refine ⟨max buffer.capacity (buffer.capacity * 2), ?_⟩
    have body : reserve neededSize buffer = (do
        set (buffer.reserveVector (buffer.capacity * 2))
        require (!decide ((buffer.reserveVector (buffer.capacity * 2)).space < neededSize))
          (.streaming "out of memory") : StreamM VectorStreamBuffer Unit) buffer := by
      change (if _ then _ else _ : StreamM VectorStreamBuffer Unit) buffer = _
      rw [if_pos short]
    unfold Runs Throws
    rw [body]
    by_cases still : (buffer.reserveVector (buffer.capacity * 2)).space < neededSize
    · right
      exact (runs_set _ _).bind_throws (throws_require (by simpa using still) _ _)
    · left
      exact (runs_set _ _).bind (runs_require (by simpa using still) _ _)
  · refine ⟨buffer.capacity, Or.inl ?_⟩
    apply (runs_get buffer).bind
    rw [if_neg short]
    exact runs_pure _ _

/-- A write reserves and then appends. -/
theorem write_cases (items : List UInt8) (buffer : VectorStreamBuffer) :
    ∃ capacity, Runs (copyFrom items) buffer ()
        { readIndex := buffer.readIndex
          writeIndex := buffer.writeIndex + items.length
          buffer := buffer.buffer ++ items
          capacity } ∨
      Throws (copyFrom items) buffer (.streaming "out of memory") { buffer with capacity } := by
  rcases reserve_cases items.length buffer with ⟨capacity, runs | throws⟩
  · exact ⟨capacity, Or.inl (runs.bind (runs_modify _ _))⟩
  · exact ⟨capacity, Or.inr throws.bind⟩

theorem appended_valid {buffer : VectorStreamBuffer} (valid : buffer.Valid) (items : List UInt8)
    (capacity : Nat) :
    Valid { readIndex := buffer.readIndex
            writeIndex := buffer.writeIndex + items.length
            buffer := buffer.buffer ++ items
            capacity } := by
  constructor
  · exact Nat.le_add_right_of_le valid.ordered
  · rw [List.length_append, ← valid.whole]

theorem write_valid {buffer : VectorStreamBuffer} (valid : buffer.Valid) (items : List UInt8) :
    BufferOperation.after (.copyFrom items) buffer |>.Valid := by
  rcases write_cases items buffer with ⟨capacity, runs | throws⟩
  · rw [(outcome_of_runs (.copyFrom items) (runs.bind (runs_pure [] _))).2]
    exact appended_valid valid items capacity
  · rw [(outcome_of_throws (.copyFrom items) throws.bind).2]
    exact ⟨valid.ordered, valid.whole⟩

theorem write_contents {buffer next : VectorStreamBuffer} (valid : buffer.Valid) (items : List UInt8)
    (runs : Runs (copyFrom items) buffer () next) : next.contents = buffer.contents ++ items := by
  have ordered := valid.ordered
  rcases write_cases items buffer with ⟨capacity, written | throws⟩
  · rcases written.unique runs with ⟨_, rfl⟩
    exact List.drop_append_of_le_length (valid.whole ▸ ordered)
  · unfold Runs at runs
    unfold Throws at throws
    rw [runs] at throws
    cases throws

theorem reset_valid (buffer : VectorStreamBuffer) : buffer.reset.Valid := ⟨Nat.le_refl 0, rfl⟩

theorem advance_read_valid {buffer : VectorStreamBuffer} (valid : buffer.Valid) {count : Nat}
    (enough : count ≤ buffer.size) : (buffer.advanceRead count).Valid := by
  have ordered := valid.ordered
  unfold size at enough
  unfold advanceRead
  dsimp only
  split
  · exact reset_valid _
  · constructor
    · change buffer.readIndex + count ≤ buffer.writeIndex
      omega
    · exact valid.whole

theorem advance_read_contents {buffer : VectorStreamBuffer} (valid : buffer.Valid) (count : Nat) :
    (buffer.advanceRead count).contents = buffer.contents.drop count := by
  unfold advanceRead
  dsimp only
  split
  · rename_i none
    have same : buffer.writeIndex = buffer.readIndex + count := by
      simpa [empty] using none
    have rest : buffer.contents.drop count = [] := by
      rw [contents, List.drop_drop, ← same, valid.whole, List.drop_length]
    rw [rest]
    rfl
  · rw [contents, contents, List.drop_drop]

theorem copy_to_runs {buffer : VectorStreamBuffer} {count : Nat} (enough : count ≤ buffer.size) :
    Runs (copyTo count) buffer (buffer.contents.take count) (buffer.advanceRead count) := by
  apply (runs_get buffer).bind
  apply (runs_require (by simpa using enough) _ _).bind
  exact (runs_set _ _).bind (runs_pure _ _)

theorem copy_to_throws {buffer : VectorStreamBuffer} {count : Nat} (short : buffer.size < count) :
    Throws (copyTo count) buffer (.streaming "buffer is corrupted") buffer := by
  apply (runs_get buffer).bind_throws
  exact (throws_require (by simpa using short) _ _).bind

theorem contents_place (buffer : VectorStreamBuffer) (index : Nat) :
    buffer.contents[index]? = buffer.buffer[buffer.readIndex + index]? := by
  rw [contents, List.getElem?_drop]

theorem queue_like : QueueLike Valid contents where
  kept operation buffer valid := by
    cases operation with
    | push item => exact write_valid valid [item]
    | pop =>
        change (pop buffer).Valid
        unfold pop
        split
        · rename_i some
          apply advance_read_valid valid
          have ordered := valid.ordered
          simp only [empty, Bool.not_eq_true', beq_eq_false_iff_ne] at some
          unfold size
          omega
        · exact valid
    | copyFrom items => exact write_valid valid items
    | copyTo count =>
        by_cases short : buffer.size < count
        · rw [(outcome_of_throws (.copyTo count) (copy_to_throws short)).2]
          exact valid
        · rw [(outcome_of_runs (.copyTo count) (copy_to_runs (Nat.not_lt.mp short))).2]
          exact advance_read_valid valid (Nat.not_lt.mp short)
    | reset => exact reset_valid buffer
  push_appends item buffer next valid runs := write_contents valid [item] runs
  copyFrom_appends items buffer next valid runs := write_contents valid items runs
  pop_contents buffer valid := by
    change (pop buffer).contents = _
    unfold pop
    split
    · rw [advance_read_contents valid, List.drop_one]
    · rename_i none
      simp only [empty_iff valid, Bool.not_eq_true', Bool.not_eq_false, List.isEmpty_iff] at none
      rw [none]
      rfl
  copyTo_runs count buffer valid enough := by
    rw [contents_length valid] at enough
    exact ⟨buffer.advanceRead count, copy_to_runs enough, advance_read_contents valid count⟩
  copyTo_throws count buffer valid short := by
    rw [contents_length valid] at short
    exact ⟨_, copy_to_throws short⟩
  reset_contents buffer valid := rfl
  front_contents buffer item rest valid split := by
    have place := contents_place buffer 0
    rw [split] at place
    change buffer.buffer.getD buffer.readIndex 0 = item
    rw [List.getD_eq_getElem?_getD]
    exact congrArg (Option.getD · 0) place.symm
  back_contents buffer init item valid split := by
    have ordered := valid.ordered
    have length := contents_length valid
    rw [split, List.length_append, List.length_singleton, size] at length
    have place := contents_place buffer init.length
    rw [split, List.getElem?_concat_length,
      show buffer.readIndex + init.length = buffer.writeIndex - 1 by omega] at place
    change buffer.buffer.getD (buffer.writeIndex - 1) 0 = item
    rw [List.getD_eq_getElem?_getD, ← place]
    rfl
  size_contents buffer valid := (contents_length valid).symm
  empty_contents buffer valid := empty_iff valid

end VectorStreamBuffer

end Sne.Core
