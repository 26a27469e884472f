import Sne.Core.StreamBuffer
import Mathlib.Tactic.Linarith

/-!
# Memory blocks

`MemoryBlock.h` and `MemoryBlockStreamBuffer.h`. A block is a vector of bytes
with a read and a write position; the bytes between them are its contents. The
operations do not check the positions, so a block is valid only while they are in
order and inside the vector.
-/

namespace Sne.Base

open Sne.Library.Exec Sne.Core

set_option autoImplicit false

structure MemoryBlock where
  buffer : List UInt8
  rdPtr : Nat
  wrPtr : Nat
  deriving DecidableEq, Repr

namespace MemoryBlock

/-- `buffer_.resize(n)`. -/
def size (n : Nat) (block : MemoryBlock) : MemoryBlock :=
  { block with buffer := block.buffer.take n ++ List.replicate (n - block.buffer.length) 0 }

def create (initialSize : Nat) : MemoryBlock := size initialSize ⟨[], 0, 0⟩

def reset (block : MemoryBlock) : MemoryBlock := { block with rdPtr := 0, wrPtr := 0 }

def length (block : MemoryBlock) : Nat := block.wrPtr - block.rdPtr

def capacity (block : MemoryBlock) : Nat := block.buffer.length

def space (block : MemoryBlock) : Nat := block.capacity - block.wrPtr

def reserve (neededSize : Nat) (block : MemoryBlock) : MemoryBlock :=
  if block.space < neededSize then block.size (block.capacity + (neededSize - block.space)) else block

/-- A store of `bytes` at `base() + offset`. -/
def store (offset : Nat) (bytes : List UInt8) (block : MemoryBlock) : MemoryBlock :=
  { block with
    buffer := block.buffer.take offset ++ bytes ++ block.buffer.drop (offset + bytes.length) }

def crunch (block : MemoryBlock) : MemoryBlock :=
  let boundary := (block.capacity * 3) / 10
  if block.rdPtr ≥ boundary then
    if block.rdPtr > block.wrPtr then
      block
    else
      { block.store 0 ((block.buffer.drop block.rdPtr).take block.length) with
        rdPtr := 0
        wrPtr := block.length }
  else
    block

def advanceWrPtr (n : Nat) (block : MemoryBlock) : MemoryBlock := { block with wrPtr := block.wrPtr + n }

def advanceRdPtr (n : Nat) (block : MemoryBlock) : MemoryBlock := { block with rdPtr := block.rdPtr + n }

/-- `rd_ptr(base() + offset)`. -/
def setRdPtr (offset : Nat) (block : MemoryBlock) : MemoryBlock := { block with rdPtr := offset }

def copyFrom (bytes : List UInt8) (block : MemoryBlock) : MemoryBlock :=
  let block := block.reserve bytes.length
  (block.store block.wrPtr bytes).advanceWrPtr bytes.length

def copyTo (n : Nat) (block : MemoryBlock) : List UInt8 × MemoryBlock :=
  ((block.buffer.drop block.rdPtr).take n, block.advanceRdPtr n)

/-- The bytes between the read and the write position. -/
def contents (block : MemoryBlock) : List UInt8 := (block.buffer.take block.wrPtr).drop block.rdPtr

structure Valid (block : MemoryBlock) : Prop where
  ordered : block.rdPtr ≤ block.wrPtr
  inside : block.wrPtr ≤ block.buffer.length

theorem contents_length {block : MemoryBlock} (valid : block.Valid) :
    block.contents.length = block.length := by
  have inside := valid.inside
  simp only [contents, length, List.length_drop, List.length_take]
  omega

theorem contents_eq_take_drop (block : MemoryBlock) :
    block.contents = (block.buffer.drop block.rdPtr).take block.length := by
  rw [contents, length, List.drop_take]

theorem size_buffer_of_le {block : MemoryBlock} {n : Nat} (grows : block.buffer.length ≤ n) :
    (block.size n).buffer = block.buffer ++ List.replicate (n - block.buffer.length) 0 := by
  rw [size, List.take_of_length_le grows]

theorem reserve_valid {block : MemoryBlock} (valid : block.Valid) (neededSize : Nat) :
    (block.reserve neededSize).Valid := by
  unfold reserve
  split
  · have grows : block.buffer.length ≤ block.capacity + (neededSize - block.space) := by
      unfold capacity
      omega
    constructor
    · exact valid.ordered
    · have inside := valid.inside
      rw [size_buffer_of_le grows]
      simp only [size, List.length_append]
      omega
  · exact valid

@[simp] theorem reserve_rdPtr (block : MemoryBlock) (neededSize : Nat) :
    (block.reserve neededSize).rdPtr = block.rdPtr := by
  unfold reserve
  split <;> rfl

@[simp] theorem reserve_wrPtr (block : MemoryBlock) (neededSize : Nat) :
    (block.reserve neededSize).wrPtr = block.wrPtr := by
  unfold reserve
  split <;> rfl

theorem reserve_contents {block : MemoryBlock} (valid : block.Valid) (neededSize : Nat) :
    (block.reserve neededSize).contents = block.contents := by
  unfold reserve
  split
  · have grows : block.buffer.length ≤ block.capacity + (neededSize - block.space) := by
      unfold capacity
      omega
    rw [contents, size_buffer_of_le grows, contents]
    simp only [size]
    rw [List.take_append_of_le_length valid.inside]
  · rfl

theorem reserve_space {block : MemoryBlock} (valid : block.Valid) (neededSize : Nat) :
    neededSize ≤ (block.reserve neededSize).space := by
  unfold reserve
  split
  · rename_i short
    have inside := valid.inside
    simp only [space, capacity, size, List.length_append, List.length_take,
      List.length_replicate] at short ⊢
    omega
  · omega

theorem copy_from_valid {block : MemoryBlock} (valid : block.Valid) (bytes : List UInt8) :
    (block.copyFrom bytes).Valid := by
  have reserved := reserve_valid valid bytes.length
  have room := reserve_space valid bytes.length
  have ordered := reserved.ordered
  have inside := reserved.inside
  unfold space capacity at room
  constructor
  · simp only [copyFrom, advanceWrPtr, store]
    omega
  · simp only [copyFrom, advanceWrPtr, store, List.length_append, List.length_take,
      List.length_drop]
    omega

theorem copy_from_contents {block : MemoryBlock} (valid : block.Valid) (bytes : List UInt8) :
    (block.copyFrom bytes).contents = block.contents ++ bytes := by
  have reserved := reserve_valid valid bytes.length
  have ordered := reserved.ordered
  have inside := reserved.inside
  have front : ((block.reserve bytes.length).buffer.take
      (block.reserve bytes.length).wrPtr).length = (block.reserve bytes.length).wrPtr :=
    List.length_take_of_le inside
  rw [← reserve_contents valid bytes.length]
  simp only [copyFrom, advanceWrPtr, store, contents]
  rw [List.take_append_of_le_length (by rw [List.length_append, front]),
    List.take_of_length_le (by rw [List.length_append, front]),
    List.drop_append_of_le_length (by rw [front]; exact ordered)]

@[simp] theorem copy_from_rdPtr (block : MemoryBlock) (bytes : List UInt8) :
    (block.copyFrom bytes).rdPtr = block.rdPtr := by
  simp [copyFrom, advanceWrPtr, store]

theorem advance_rd_valid {block : MemoryBlock} (valid : block.Valid) {n : Nat}
    (enough : n ≤ block.length) : (block.advanceRdPtr n).Valid := by
  have ordered := valid.ordered
  unfold length at enough
  constructor
  · simp only [advanceRdPtr]
    omega
  · exact valid.inside

theorem advance_rd_contents (block : MemoryBlock) (n : Nat) :
    (block.advanceRdPtr n).contents = block.contents.drop n := by
  simp [advanceRdPtr, contents, List.drop_drop]

/-- A valid block stays as it is or has its contents moved to the base. -/
theorem crunch_cases {block : MemoryBlock} (valid : block.Valid) :
    block.crunch = block ∨
      block.crunch =
        { block.store 0 block.contents with rdPtr := 0, wrPtr := block.contents.length } := by
  have ordered := valid.ordered
  rw [contents_length valid, contents_eq_take_drop]
  by_cases moves : block.rdPtr ≥ (block.capacity * 3) / 10
  · right
    simp only [crunch, if_pos moves, if_neg (Nat.not_lt.mpr ordered)]
  · left
    simp only [crunch, if_neg moves]

theorem crunch_valid {block : MemoryBlock} (valid : block.Valid) : block.crunch.Valid := by
  rcases crunch_cases valid with same | moved
  · rw [same]
    exact valid
  · rw [moved]
    constructor
    · exact Nat.zero_le _
    · simp [store]

theorem crunch_contents {block : MemoryBlock} (valid : block.Valid) :
    block.crunch.contents = block.contents := by
  rcases crunch_cases valid with same | moved
  · rw [same]
  · rw [moved]
    simp [contents, store]

theorem store_store (block : MemoryBlock) (first second : List UInt8) :
    (block.store 0 first).store first.length second = block.store 0 (first ++ second) := by
  simp only [store, List.take_zero, List.nil_append, Nat.zero_add, List.length_append]
  rw [List.take_left, ← List.drop_drop, List.drop_left, List.drop_drop, List.append_assoc]

theorem reset_contents (block : MemoryBlock) : block.reset.contents = [] := by
  simp [reset, contents]

theorem reset_valid (block : MemoryBlock) : block.reset.Valid := ⟨Nat.le_refl _, Nat.zero_le _⟩

theorem length_eq_zero_iff {block : MemoryBlock} (valid : block.Valid) :
    block.length = 0 ↔ block.contents = [] := by
  rw [← contents_length valid, List.length_eq_zero_iff]

/-- Reading moves the read position and then resets or compacts the block. -/
def release (block : MemoryBlock) : MemoryBlock :=
  if block.length = 0 then block.reset else block.crunch

theorem release_valid {block : MemoryBlock} (valid : block.Valid) : block.release.Valid := by
  unfold release
  split
  · exact reset_valid block
  · exact crunch_valid valid

theorem release_contents {block : MemoryBlock} (valid : block.Valid) :
    block.release.contents = block.contents := by
  unfold release
  split
  · rename_i empty
    rw [reset_contents, (length_eq_zero_iff valid).mp empty]
  · exact crunch_contents valid

theorem store_back {block : MemoryBlock} (valid : block.Valid) {front : List UInt8} {old : UInt8}
    (split : block.contents = front ++ [old]) (item : UInt8) :
    (block.store (block.wrPtr - 1) [item]).Valid ∧
      (block.store (block.wrPtr - 1) [item]).contents = front ++ [item] := by
  have ordered := valid.ordered
  have inside := valid.inside
  have count := congrArg List.length split
  rw [contents_length valid, length, List.length_append, List.length_singleton] at count
  have keptLength : (block.buffer.take (block.wrPtr - 1)).length = block.wrPtr - 1 :=
    List.length_take_of_le (by omega)
  constructor
  · constructor
    · exact ordered
    · simp only [store, List.length_append, List.length_take, List.length_drop, List.length_singleton]
      omega
  · have frontEq : front = (block.buffer.take (block.wrPtr - 1)).drop block.rdPtr := by
      have dropped := congrArg List.dropLast split
      rw [List.dropLast_concat, contents, List.dropLast_eq_take, List.drop_take, List.take_take,
        List.length_take, List.length_drop] at dropped
      rw [← dropped, List.drop_take]
      congr 1
      omega
    have newLength : (block.buffer.take (block.wrPtr - 1) ++ [item]).length = block.wrPtr := by
      rw [List.length_append, keptLength, List.length_singleton]
      omega
    rw [frontEq]
    simp only [contents, store]
    rw [List.take_append_of_le_length (Nat.le_of_eq newLength.symm),
      List.take_of_length_le (Nat.le_of_eq newLength),
      List.drop_append_of_le_length (by rw [keptLength]; omega)]

theorem front_contents {block : MemoryBlock} (valid : block.Valid) {item : UInt8}
    {rest : List UInt8} (split : block.contents = item :: rest) :
    block.buffer.getD block.rdPtr 0 = item := by
  have count := congrArg List.length split
  rw [contents_length valid, length, List.length_cons] at count
  have first := congrArg (fun bytes => bytes.getD 0 0) split
  simp only [contents, List.getD_eq_getElem?_getD, List.getElem?_drop, List.getElem?_take,
    Nat.add_zero, show block.rdPtr < block.wrPtr by omega, if_true, List.getElem?_cons_zero,
    Option.getD_some] at first
  rw [List.getD_eq_getElem?_getD]
  exact first

theorem back_contents {block : MemoryBlock} (valid : block.Valid) {front : List UInt8}
    {item : UInt8} (split : block.contents = front ++ [item]) :
    block.buffer.getD (block.wrPtr - 1) 0 = item := by
  have count := congrArg List.length split
  rw [contents_length valid, length, List.length_append, List.length_singleton] at count
  have last := congrArg (fun bytes => bytes.getD front.length 0) split
  simp only [contents, List.getD_eq_getElem?_getD, List.getElem?_drop, List.getElem?_take,
    show block.rdPtr + front.length = block.wrPtr - 1 by omega,
    show block.wrPtr - 1 < block.wrPtr by omega, if_true, List.getElem?_concat_length,
    Option.getD_some] at last
  rw [List.getD_eq_getElem?_getD]
  exact last

end MemoryBlock

structure MemoryBlockStreamBuffer where
  block : MemoryBlock
  valid : block.Valid

namespace MemoryBlockStreamBuffer

def pop (buffer : MemoryBlockStreamBuffer) : MemoryBlockStreamBuffer :=
  if some : buffer.block.length ≠ 0 then
    ⟨(buffer.block.advanceRdPtr 1).release,
      MemoryBlock.release_valid (MemoryBlock.advance_rd_valid buffer.valid (by omega))⟩
  else
    buffer

def copyFrom (items : List UInt8) : StreamM MemoryBlockStreamBuffer Unit :=
  modify fun buffer => ⟨buffer.block.copyFrom items, MemoryBlock.copy_from_valid buffer.valid items⟩

def copyTo (blockSize : Nat) : StreamM MemoryBlockStreamBuffer (List UInt8) := fun buffer =>
  if enough : blockSize ≤ buffer.block.length then
    .ok (buffer.block.copyTo blockSize).1
      ⟨(buffer.block.copyTo blockSize).2.release,
        MemoryBlock.release_valid (MemoryBlock.advance_rd_valid buffer.valid enough)⟩
  else
    .error (.streaming "block is corrupted") buffer

/-- Assignment through `back()`, which the interface allows on a nonempty buffer only. -/
def setBack (item : UInt8) (buffer : MemoryBlockStreamBuffer) : MemoryBlockStreamBuffer :=
  if some : buffer.block.contents ≠ [] then
    ⟨buffer.block.store (buffer.block.wrPtr - 1) [item],
      (MemoryBlock.store_back buffer.valid (List.dropLast_concat_getLast some).symm item).1⟩
  else
    buffer

instance : StreamBuffer MemoryBlockStreamBuffer where
  push item := copyFrom [item]
  pop := pop
  copyFrom := copyFrom
  copyTo := copyTo
  reset buffer := ⟨buffer.block.reset, MemoryBlock.reset_valid _⟩
  front buffer := buffer.block.buffer.getD buffer.block.rdPtr 0
  back buffer := buffer.block.buffer.getD (buffer.block.wrPtr - 1) 0
  setBack := setBack
  size buffer := buffer.block.length
  empty buffer := buffer.block.length == 0

theorem pop_contents (buffer : MemoryBlockStreamBuffer) :
    buffer.pop.block.contents = buffer.block.contents.tail := by
  unfold pop
  split
  · rename_i some
    have moved := MemoryBlock.advance_rd_valid (n := 1) buffer.valid (by omega)
    simp only
    rw [MemoryBlock.release_contents moved, MemoryBlock.advance_rd_contents, List.drop_one]
  · rename_i empty
    rw [(MemoryBlock.length_eq_zero_iff buffer.valid).mp (Classical.not_not.mp empty)]
    rfl

theorem copyFrom_runs (items : List UInt8) (buffer : MemoryBlockStreamBuffer) :
    ∃ after, Runs (copyFrom items) buffer () after ∧
      after.block.contents = buffer.block.contents ++ items :=
  ⟨_, runs_modify _ _, MemoryBlock.copy_from_contents buffer.valid items⟩

theorem copyTo_runs (blockSize : Nat) (buffer : MemoryBlockStreamBuffer)
    (enough : blockSize ≤ buffer.block.contents.length) :
    ∃ after, Runs (copyTo blockSize) buffer (buffer.block.contents.take blockSize) after ∧
      after.block.contents = buffer.block.contents.drop blockSize := by
  rw [MemoryBlock.contents_length buffer.valid] at enough
  have moved := MemoryBlock.advance_rd_valid buffer.valid enough
  refine ⟨⟨_, MemoryBlock.release_valid moved⟩, ?_, ?_⟩
  · have bytes : (buffer.block.copyTo blockSize).1 = buffer.block.contents.take blockSize := by
      rw [MemoryBlock.contents_eq_take_drop, List.take_take, Nat.min_eq_left enough]
      rfl
    rw [← bytes]
    unfold Runs copyTo
    rw [dif_pos enough]
    rfl
  · rw [MemoryBlock.release_contents moved, MemoryBlock.advance_rd_contents]

instance : FifoBuffer MemoryBlockStreamBuffer where
  contents buffer := buffer.block.contents
  push_runs item := copyFrom_runs [item]
  pop_contents := pop_contents
  copyFrom_runs := copyFrom_runs
  copyTo_runs := copyTo_runs
  copyTo_throws blockSize buffer short := by
    rw [MemoryBlock.contents_length buffer.valid] at short
    refine ⟨.streaming "block is corrupted", ?_⟩
    change copyTo blockSize buffer = _
    rw [copyTo, dif_neg (Nat.not_le.mpr short)]
  reset_contents buffer := MemoryBlock.reset_contents buffer.block
  front_contents buffer item rest split := MemoryBlock.front_contents buffer.valid split
  back_contents buffer front item split := MemoryBlock.back_contents buffer.valid split
  setBack_contents buffer front old item split := by
    have some : buffer.block.contents ≠ [] := by
      rw [split]
      simp
    change (setBack item buffer).block.contents = _
    rw [setBack, dif_pos some]
    exact (MemoryBlock.store_back buffer.valid split item).2
  size_contents buffer := (MemoryBlock.contents_length buffer.valid).symm
  empty_contents buffer := by
    rw [Bool.eq_iff_iff, List.isEmpty_iff, ← MemoryBlock.length_eq_zero_iff buffer.valid]
    exact beq_iff_eq

end MemoryBlockStreamBuffer

end Sne.Base
