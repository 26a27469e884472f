import Sne.Core.BitUnpacking
import Sne.Library.Simulation

/-!
# The input bit stream on arbitrary bytes

A peer decides both the bytes and the lengths in them, so nothing is assumed of either.
`Placed` holds between any two calls. The checked readers are the readers with a test
before every `front()` and `pop()`, which the source does not make: from a placed stream
the test never fails, and what is left is placed again.
-/

namespace Sne.Core

open Sne.Library.Exec Sne.Library.Bits Sne.Library.Simulation

set_option autoImplicit false

inductive StreamRead where
  | uint64 (bitCount : Nat)
  | uint32 (bitCount : Nat)
  | uint16 (bitCount : Nat)
  | uint8 (bitCount : Nat)
  | bool (bitCount : Nat)
  | int64 (bitCount : Nat)
  | int32 (bitCount : Nat)
  | int16 (bitCount : Nat)
  | int8 (bitCount : Nat)
  | float32 (bitCount : Nat)
  | enum (bitCount : Nat)
  | string (maxLength sizeBits : Nat)
  | wstring (maxLength sizeBits : Nat)
  | buffer (length : UInt16)
  | align
  | reset (resetBuffer : Bool)
  deriving DecidableEq, Repr

def StreamRead.perform {σ : Type} [IStream σ] : StreamRead → StreamM σ Unit
  | uint64 bitCount => do let _ ← IStream.readUInt64 bitCount
  | uint32 bitCount => do let _ ← IStream.readUInt32 bitCount
  | uint16 bitCount => do let _ ← IStream.readUInt16 bitCount
  | uint8 bitCount => do let _ ← IStream.readUInt8 bitCount
  | bool bitCount => do let _ ← IStream.readBool bitCount
  | int64 bitCount => do let _ ← IStream.readInt64 bitCount
  | int32 bitCount => do let _ ← IStream.readInt32 bitCount
  | int16 bitCount => do let _ ← IStream.readInt16 bitCount
  | int8 bitCount => do let _ ← IStream.readInt8 bitCount
  | float32 bitCount => do let _ ← IStream.readFloat32 bitCount
  | enum bitCount => do let _ ← IStream.readEnum bitCount
  | string maxLength sizeBits => do let _ ← IStream.readString maxLength sizeBits
  | wstring maxLength sizeBits => do let _ ← IStream.readWString maxLength sizeBits
  | buffer length => do let _ ← IStream.readBuffer length
  | align => IStream.align
  | reset resetBuffer => modify (IStream.reset resetBuffer)

/-- The stream after the calls. An exception ends a call, and the next one goes on from
where it left the stream. -/
def afterReads {σ : Type} [IStream σ] (reads : List StreamRead) (stream : σ) : σ :=
  reads.foldl (fun stream read => finalState (read.perform stream)) stream

namespace IBitStream

section Checked

variable {β : Type} [StreamBuffer β]

/-- Thrown by no reader of the source. -/
def emptyAccess : Exception := .streaming "front() or pop() on an empty buffer"

def checkedPop : StreamM β Unit := do
  let buffer ← get
  require (!StreamBuffer.empty buffer) emptyAccess
  modify StreamBuffer.pop

def checkedFront (n : Nat) : StreamM β (BitVec n) := do
  let buffer ← get
  require (!StreamBuffer.empty buffer) emptyAccess
  pure (frontBits n buffer)

def checkedReadLeftBits {n : Nat} : Nat → Nat → Nat → BitVec n → StreamM β (BitVec n)
  | 0, _, _, result => pure result
  | fuel + 1, leftBitCount, shiftCount, result =>
      if leftBitCount > 0 then do
        checkedPop
        let front ← checkedFront n
        checkedReadLeftBits fuel (leftBitCount - charBit) (shiftCount + charBit)
          (result ||| (front <<< shiftCount))
      else
        pure result

def checkedReadBits (n bitCount : Nat) : StreamM (IBitStream β) (BitVec n) := do
  require (isEnoughBits n bitCount) (.streaming "invalid bitCount")
  let stream ← get
  let shiftCount := charBit - stream.bitReadCount
  let leftBitCount := bitCount - shiftCount
  let needBytes := toBytes leftBitCount + 1
  require (!decide (StreamBuffer.size stream.streamBuffer < needBytes))
    (.streaming "buffer is not enough")
  let front ← onBuffer (checkedFront n)
  let result ← onBuffer (checkedReadLeftBits leftBitCount leftBitCount shiftCount
    (front >>> stream.bitReadCount))
  let bitReadCount := (stream.bitReadCount + bitCount) &&& (charBit - 1)
  modify fun stream => { stream with bitReadCount }
  guarded (decide (bitReadCount = 0)) (onBuffer checkedPop)
  pure (result &&& readMask n bitCount)

def checkedAlign : StreamM (IBitStream β) Unit := do
  let stream ← get
  guarded (decide (stream.bitReadCount > 0)) (onBuffer checkedPop)
  modify fun stream => { stream with bitReadCount := 0 }

def checkedReadBuffer (length : UInt16) : StreamM (IBitStream β) (List UInt8) := do
  checkedAlign
  onBuffer (StreamBuffer.copyTo length.toNat)

/-- The numeric readers differ only in what they make of the bits. -/
def checkedPerform : StreamRead → StreamM (IBitStream β) Unit
  | .uint64 bitCount | .int64 bitCount | .enum bitCount => do let _ ← checkedReadBits 64 bitCount
  | .uint32 bitCount | .uint16 bitCount | .uint8 bitCount | .bool bitCount | .int32 bitCount
  | .int16 bitCount | .int8 bitCount | .float32 bitCount => do let _ ← checkedReadBits 32 bitCount
  | .string _ sizeBits => do
      let strLen ← checkedReadBits 32 sizeBits
      if UInt32.ofBitVec strLen > 0 then do
        let _ ← checkedReadBuffer (UInt32.ofBitVec strLen).toUInt16
      else
        pure ()
  | .wstring _ sizeBits => do
      let strLen ← checkedReadBits 32 sizeBits
      let stream ← get
      if UInt32.ofBitVec strLen > 0 then
        if stream.shouldUseUtf8ForString then do
          let _ ← checkedReadBuffer (UInt32.ofBitVec strLen).toUInt16
        else do
          let _ ← checkedReadBuffer ((UInt32.ofBitVec strLen).toUInt16 * 4)
      else
        pure ()
  | .buffer length => do let _ ← checkedReadBuffer length
  | .align => checkedAlign
  | .reset resetBuffer => modify (reset resetBuffer)

end Checked

variable {β : Type} [FifoBuffer β]

structure Placed (stream : IBitStream β) : Prop where
  position : stream.bitReadCount < 8
  present : 0 < stream.bitReadCount → FifoBuffer.contents stream.streamBuffer ≠ []

theorem nonempty_holds {buffer : β} (some : FifoBuffer.contents buffer ≠ []) :
    (!StreamBuffer.empty buffer) = true := by
  rw [FifoBuffer.empty_contents, List.isEmpty_eq_false_iff.mpr some]
  rfl

theorem checked_pop_runs {buffer : β} (some : FifoBuffer.contents buffer ≠ []) :
    Runs checkedPop buffer () (StreamBuffer.pop buffer) :=
  (runs_get _).bind ((runs_require (nonempty_holds some) _ _).bind (runs_modify _ _))

theorem checked_front_runs (n : Nat) {buffer : β} (some : FifoBuffer.contents buffer ≠ []) :
    Runs (checkedFront n) buffer (frontBits n buffer) buffer :=
  (runs_get _).bind ((runs_require (nonempty_holds some) _ _).bind (runs_pure _ _))

def Beyond (count : Nat) (buffer : β) : Prop :=
  count < (FifoBuffer.contents buffer).length

theorem Beyond.nonempty {count : Nat} {buffer : β} (beyond : Beyond count buffer) :
    FifoBuffer.contents buffer ≠ [] :=
  List.ne_nil_of_length_pos (Nat.zero_lt_of_lt beyond)

theorem Beyond.pop {count : Nat} {buffer : β} (beyond : Beyond (count + 1) buffer) :
    Beyond count (StreamBuffer.pop buffer) := by
  unfold Beyond at *
  rw [FifoBuffer.pop_contents, List.length_tail]
  omega

/-- Each round takes a byte that the size check counted, and one is left at the end. -/
theorem read_left_bits_same {n : Nat} (fuel leftBitCount shiftCount : Nat) (result : BitVec n)
    (enough : leftBitCount ≤ fuel) :
    Simulates (Same (Beyond (toBytes leftBitCount))) (Same (Beyond 0))
      (checkedReadLeftBits fuel leftBitCount shiftCount result : StreamM β (BitVec n))
      (readLeftBits fuel leftBitCount shiftCount result) := by
  induction fuel generalizing leftBitCount shiftCount result with
  | zero =>
      rintro buffer _ ⟨rfl, beyond⟩
      exact ⟨rfl, rfl, Nat.zero_lt_of_lt beyond⟩
  | succ fuel induction =>
      rintro buffer _ ⟨rfl, beyond⟩
      unfold checkedReadLeftBits readLeftBits
      by_cases more : leftBitCount > 0
      · have bytes : toBytes leftBitCount = toBytes (leftBitCount - charBit) + 1 := by
          unfold toBytes charBit
          omega
        rw [bytes] at beyond
        rw [if_pos more, if_pos more]
        rw [(checked_pop_runs beyond.nonempty).bind_eq, (runs_modify _ _).bind_eq,
          (checked_front_runs n beyond.pop.nonempty).bind_eq, (runs_get _).bind_eq]
        exact induction _ _ _ (by unfold charBit; omega) _ _ ⟨rfl, beyond.pop⟩
      · rw [if_neg more, if_neg more]
        exact ⟨rfl, rfl, Nat.zero_lt_of_lt beyond⟩

omit [FifoBuffer β] in
theorem on_buffer_runs {α : Type} {program : StreamM β α} (stream : IBitStream β) {value : α} {after : β}
    (inner : Runs program stream.streamBuffer value after) :
    Runs (onBuffer program) stream value { stream with streamBuffer := after } :=
  inner.focus

structure Reading (count : Nat) (stream : IBitStream β) : Prop where
  position : stream.bitReadCount < 8
  beyond : Beyond count stream.streamBuffer

theorem left_bits_same {n : Nat} (fuel leftBitCount shiftCount : Nat) (result : BitVec n)
    (enough : leftBitCount ≤ fuel) :
    Simulates (Same (Reading (toBytes leftBitCount))) (Same (Reading 0))
      (onBuffer (checkedReadLeftBits fuel leftBitCount shiftCount result) :
        StreamM (IBitStream β) (BitVec n))
      (onBuffer (readLeftBits fuel leftBitCount shiftCount result)) := by
  apply simulates_focus (read_left_bits_same fuel leftBitCount shiftCount result enough)
  · rintro stream _ ⟨rfl, reading⟩
    exact ⟨rfl, reading.beyond⟩
  · rintro stream _ buffer _ ⟨rfl, reading⟩ ⟨rfl, beyond⟩
    exact ⟨rfl, reading.position, beyond⟩

theorem position_wraps (bitReadCount bitCount : Nat) :
    (bitReadCount + bitCount) &&& (charBit - 1) < 8 := by
  rw [show charBit - 1 = 2 ^ 3 - 1 from rfl, Nat.and_two_pow_sub_one_eq_mod]
  exact Nat.mod_lt _ (by decide)

/-- The last statements of `readBitsImpl`, with the front byte still there. -/
theorem advance_same {n : Nat} (bitReadCount : Nat) (position : bitReadCount < 8) (value : BitVec n) :
    Simulates (Same (Reading 0)) (Same Placed)
      (do modify fun stream => { stream with bitReadCount }
          guarded (decide (bitReadCount = 0)) (onBuffer checkedPop)
          pure value : StreamM (IBitStream β) (BitVec n))
      (do modify fun stream => { stream with bitReadCount }
          guarded (decide (bitReadCount = 0)) (onBuffer (modify StreamBuffer.pop))
          pure value) := by
  rintro stream _ ⟨rfl, reading⟩
  have some := reading.beyond.nonempty
  rw [(runs_modify _ _).bind_eq, (runs_modify _ _).bind_eq]
  by_cases boundary : bitReadCount = 0
  · have pops := on_buffer_runs { stream with bitReadCount } (checked_pop_runs some)
    have sourcePops := on_buffer_runs { stream with bitReadCount }
      (runs_modify StreamBuffer.pop stream.streamBuffer)
    rw [(pops.guarded (by simpa using boundary)).bind_eq,
      (sourcePops.guarded (by simpa using boundary)).bind_eq]
    refine ⟨rfl, rfl, position, ?_⟩
    intro inside
    exact absurd boundary (Nat.ne_of_gt inside)
  · rw [(runs_guarded_skip (by simpa using boundary) _ _).bind_eq,
      (runs_guarded_skip (by simpa using boundary) _ _).bind_eq]
    exact ⟨rfl, rfl, position, fun _ => some⟩

theorem read_bits_same (n bitCount : Nat) :
    Simulates (Same Placed) (Same Placed)
    (checkedReadBits n bitCount : StreamM (IBitStream β) (BitVec n))
      (readBitsImpl n bitCount) := by
  apply (simulates_require rfl _).seq
  intro _
  apply simulates_get
  rintro stream _ ⟨rfl, placed⟩
  by_cases short : StreamBuffer.size stream.streamBuffer <
      toBytes (bitCount - (charBit - stream.bitReadCount)) + 1
  · have refused : (!decide (StreamBuffer.size stream.streamBuffer <
        toBytes (bitCount - (charBit - stream.bitReadCount)) + 1)) = false := by
      simpa using short
    exact related_throws (throws_require refused _ _).bind (throws_require refused _ _).bind ⟨rfl, placed⟩
  · have allowed : (!decide (StreamBuffer.size stream.streamBuffer <
        toBytes (bitCount - (charBit - stream.bitReadCount)) + 1)) = true := by
      simpa using short
    have beyond : Beyond (toBytes (bitCount - (charBit - stream.bitReadCount))) stream.streamBuffer := by
      rw [FifoBuffer.size_contents] at short
      unfold Beyond
      omega
    have front := on_buffer_runs stream (checked_front_runs n beyond.nonempty)
    rw [(runs_require allowed _ _).bind_eq, (runs_require allowed _ _).bind_eq, front.bind_eq]
    apply (left_bits_same _ _ _ _ (Nat.le_refl _) stream stream
      ⟨rfl, placed.position, beyond⟩).bind
    · rintro left right ⟨same, reading⟩
      exact ⟨same, reading.position, fun _ => reading.beyond.nonempty⟩
    · intro result
      exact advance_same _ (position_wraps _ _) _

def OnBoundary (stream : IBitStream β) : Prop :=
  stream.bitReadCount = 0

theorem boundary_placed {stream : IBitStream β} (boundary : stream.OnBoundary) : stream.Placed := by
  unfold OnBoundary at boundary
  constructor
  · omega
  · intro inside
    omega

theorem align_same :
    Simulates (Same Placed) (Same OnBoundary) (checkedAlign : StreamM (IBitStream β) Unit) align := by
  apply simulates_get
  rintro stream _ ⟨rfl, placed⟩
  by_cases inside : stream.bitReadCount > 0
  · have pops := on_buffer_runs stream (checked_pop_runs (placed.present inside))
    have sourcePops := on_buffer_runs stream (runs_modify StreamBuffer.pop stream.streamBuffer)
    rw [(pops.guarded (by simpa using inside)).bind_eq,
      (sourcePops.guarded (by simpa using inside)).bind_eq]
    exact ⟨rfl, rfl, rfl⟩
  · rw [(runs_guarded_skip (by simpa using inside) _ _).bind_eq,
      (runs_guarded_skip (by simpa using inside) _ _).bind_eq]
    exact ⟨rfl, rfl, rfl⟩

theorem same_placed {left right : IBitStream β} (same : Same OnBoundary left right) :
    Same Placed left right :=
  ⟨same.1, boundary_placed same.2⟩

theorem read_buffer_same (length : UInt16) :
    Simulates (Same Placed) (Same Placed)
      (checkedReadBuffer length : StreamM (IBitStream β) (List UInt8)) (readBuffer length) := by
  apply align_same.bind (fun _ _ => same_placed)
  intro _
  have copies : Establishes OnBoundary Placed
      (onBuffer (StreamBuffer.copyTo length.toNat) : StreamM (IBitStream β) (List UInt8)) := by
    apply establishes_focus
    intro stream buffer boundary
    exact boundary_placed boundary
  exact copies.same

theorem dropped_same {α γ : Type} {program other : StreamM (IBitStream β) α}
    (same : Simulates (Same Placed) (Same Placed) program other) (change : α → γ) :
    Simulates (Same Placed) (Same Placed) (do let _ ← program)
      (do let _ ← (do let value ← other; pure (change value))) := by
  rw [bind_assoc]
  apply same.seq
  intro value
  rw [pure_bind]
  exact simulates_pure ()

theorem read_string_same (maxLength sizeBits : Nat) :
    Simulates (Same Placed) (Same Placed)
      (checkedPerform (.string maxLength sizeBits) : StreamM (IBitStream β) Unit)
      (do let _ ← readString maxLength sizeBits) := by
  unfold readString readUInt32
  simp only [bind_assoc, pure_bind]
  apply (read_bits_same 32 sizeBits).seq
  intro strLen
  by_cases some : UInt32.ofBitVec strLen > 0
  · rw [if_pos some, if_pos some]
    exact dropped_same (read_buffer_same _) _
  · rw [if_neg some, if_neg some]
    exact simulates_pure ()

theorem read_wstring_same (maxLength sizeBits : Nat) :
    Simulates (Same Placed) (Same Placed)
      (checkedPerform (.wstring maxLength sizeBits) : StreamM (IBitStream β) Unit)
      (do let _ ← readWString maxLength sizeBits) := by
  unfold readWString readUInt32
  simp only [bind_assoc, pure_bind]
  apply (read_bits_same 32 sizeBits).seq
  intro strLen
  apply simulates_get
  rintro stream _ ⟨rfl, placed⟩
  by_cases some : UInt32.ofBitVec strLen > 0
  · rw [if_pos some, if_pos some]
    cases stream.shouldUseUtf8ForString with
    | true => exact dropped_same (read_buffer_same _) _ stream stream ⟨rfl, placed⟩
    | false => exact dropped_same (read_buffer_same _) _ stream stream ⟨rfl, placed⟩
  · rw [if_neg some, if_neg some]
    exact ⟨rfl, rfl, placed⟩

theorem perform_same (read : StreamRead) :
    Simulates (Same Placed) (Same Placed) (checkedPerform read : StreamM (IBitStream β) Unit)
      read.perform := by
  have numeric : ∀ {γ : Type} (n bitCount : Nat) (change : BitVec n → γ),
      Simulates (Same Placed) (Same Placed) (do let _ ← checkedReadBits n bitCount)
        (do let _ ← (do let value ← readBitsImpl n bitCount; pure (change value)) :
          StreamM (IBitStream β) Unit) := by
    intro γ n bitCount change
    exact dropped_same (read_bits_same n bitCount) change
  have signed : ∀ {γ : Type} (size bitCount : Nat) (change : BitVec 32 → γ),
      Simulates (Same Placed) (Same Placed) (do let _ ← checkedReadBits 32 bitCount)
        (do let _ ← (do let numeric ← readSignedNumeric size bitCount; pure (change numeric)) :
          StreamM (IBitStream β) Unit) := by
    intro γ size bitCount change
    unfold readSignedNumeric
    rw [bind_assoc (readBitsImpl 32 bitCount)]
    simp only [pure_bind]
    exact numeric 32 bitCount _
  cases read with
  | uint64 bitCount => exact numeric 64 bitCount _
  | uint32 bitCount => exact numeric 32 bitCount _
  | uint16 bitCount => exact numeric 32 bitCount _
  | uint8 bitCount => exact numeric 32 bitCount _
  | bool bitCount => exact numeric 32 bitCount _
  | int64 bitCount => exact numeric 64 bitCount _
  | int32 bitCount => exact signed 32 bitCount _
  | int16 bitCount => exact signed 16 bitCount _
  | int8 bitCount => exact signed 8 bitCount _
  | float32 bitCount => exact numeric 32 bitCount _
  | enum bitCount => exact numeric 64 bitCount _
  | string maxLength sizeBits => exact read_string_same maxLength sizeBits
  | wstring maxLength sizeBits => exact read_wstring_same maxLength sizeBits
  | buffer length =>
      apply (read_buffer_same length).seq
      intro bytes
      exact simulates_pure ()
  | align => exact align_same.weaken (fun _ _ => same_placed)
  | reset resetBuffer =>
      apply simulates_modify
      rintro stream _ ⟨rfl, _⟩
      exact same_placed ⟨rfl, rfl⟩

theorem reads_placed (reads : List StreamRead) {stream : IBitStream β} (placed : stream.Placed) :
    (afterReads reads stream).Placed := by
  induction reads generalizing stream with
  | nil => exact placed
  | cons read rest induction =>
      have related := perform_same read stream stream ⟨rfl, placed⟩
      have step := related.final.2
      rw [related.eq_of_same] at step
      exact induction step

/-- The bits that have not been read, the next one first. -/
def unread (stream : IBitStream β) : List Bool :=
  (bytesBits (FifoBuffer.contents stream.streamBuffer)).drop stream.bitReadCount

theorem Placed.remains {stream : IBitStream β} (placed : stream.Placed) :
    stream.Remains stream.unread := by
  refine ⟨rfl, placed.position, ?_⟩
  have position := placed.position
  have present : 0 < stream.bitReadCount →
      0 < (FifoBuffer.contents stream.streamBuffer).length := by
    intro inside
    exact List.length_pos_of_ne_nil (placed.present inside)
  unfold unread
  rw [List.length_drop, bytes_bits_length]
  omega

theorem Placed.unread_length {stream : IBitStream β} (placed : stream.Placed) :
    stream.unread.length = 8 * StreamBuffer.size stream.streamBuffer - stream.bitReadCount := by
  have total := placed.remains.total
  rw [FifoBuffer.size_contents]
  omega

theorem read_mask_keeps {n bitCount : Nat} (carrier : n = 32 ∨ n = 64)
    (valid : isEnoughBits n bitCount = true) :
    ∃ kept ≤ bitCount, (n = 32 → kept = bitCount) ∧
      ∀ index < n, (readMask n bitCount).getLsbD index = decide (index < kept) := by
  have range := (is_enough_bits_iff n bitCount).mp valid
  rcases carrier with rfl | rfl
  · exact ⟨bitCount, Nat.le_refl _, fun _ => rfl, read_mask_narrow bitCount range.2⟩
  · by_cases narrow : bitCount < 64
    · refine ⟨bitCount % 32, Nat.mod_le _ _, by omega, ?_⟩
      intro index inside
      unfold readMask
      rw [if_pos narrow]
      exact int_mask_extended bitCount index
    · rw [show bitCount = 64 by omega]
      exact ⟨64, Nat.le_refl _, by omega, read_mask_full 64⟩

theorem read_bits_reads {n bitCount : Nat} (carrier : n = 32 ∨ n = 64)
    (valid : isEnoughBits n bitCount = true) {stream : IBitStream β} (placed : stream.Placed)
    (enough : bitCount ≤ stream.unread.length) :
    ∃ value after, Runs (readBitsImpl n bitCount) stream value after ∧
      after.unread = stream.unread.drop bitCount ∧
      (n = 32 → value.toNat = ofBits (stream.unread.take bitCount)) := by
  have wide : 8 ≤ n := by omega
  have field : (stream.unread.take bitCount).length = bitCount := List.length_take_of_le enough
  have remains := placed.remains
  rw [← List.take_append_drop bitCount stream.unread] at remains
  obtain ⟨kept, short, whole, mask⟩ := read_mask_keeps carrier valid
  rw [← field] at short valid mask
  obtain ⟨value, after, runs, rest, bits, _⟩ := read_bits_keeps wide _ _ short valid mask stream remains
  rw [field] at runs
  refine ⟨value, after, runs, rest.unread, ?_⟩
  intro narrow
  rw [bits, whole narrow, List.take_take, Nat.min_self]

/-- The check counts bytes, the front byte apart. -/
theorem read_bits_refuses {n bitCount : Nat} (valid : isEnoughBits n bitCount = true)
    {stream : IBitStream β} (placed : stream.Placed) (short : stream.unread.length < bitCount) :
    Throws (readBitsImpl n bitCount) stream (.streaming "buffer is not enough") stream := by
  have total := placed.remains.total
  have position := placed.position
  have refused : (!decide (StreamBuffer.size stream.streamBuffer <
      toBytes (bitCount - (charBit - stream.bitReadCount)) + 1)) = false := by
    rw [FifoBuffer.size_contents]
    unfold toBytes charBit
    simp
    omega
  exact (runs_require valid _ _).bind_throws ((runs_get _).bind_throws (throws_require refused _ _).bind)

/-- After any calls on any bytes: the position is in a byte that is there, no call of
`front()` or `pop()` that can follow meets an empty buffer, and a read of a valid width
either takes exactly its bits or throws and changes nothing. -/
theorem reads_exact_and_safe (buffer : β) (shouldUseUtf8ForString : Bool) (reads : List StreamRead) :
    let stream := afterReads reads (create buffer shouldUseUtf8ForString)
    stream.bitReadCount < 8 ∧
    (0 < stream.bitReadCount → FifoBuffer.contents stream.streamBuffer ≠ []) ∧
    (∀ read, checkedPerform read stream = read.perform stream) ∧
    ∀ n bitCount, n = 32 ∨ n = 64 → isEnoughBits n bitCount = true →
      (threw (readBitsImpl n bitCount stream) = true ↔
        8 * StreamBuffer.size stream.streamBuffer - stream.bitReadCount < bitCount) ∧
      (threw (readBitsImpl n bitCount stream) = true →
        finalState (readBitsImpl n bitCount stream) = stream) ∧
      (threw (readBitsImpl n bitCount stream) = false →
        ∃ value after, Runs (readBitsImpl n bitCount) stream value after ∧
          after.unread = stream.unread.drop bitCount ∧
          (n = 32 → value.toNat = ofBits (stream.unread.take bitCount))) := by
  intro stream
  have start : (create buffer shouldUseUtf8ForString).Placed := boundary_placed rfl
  have placed : stream.Placed := reads_placed reads start
  refine ⟨placed.position, placed.present, ?_, ?_⟩
  · intro read
    exact (perform_same read stream stream ⟨rfl, placed⟩).eq_of_same
  · intro n bitCount carrier valid
    rw [← placed.unread_length]
    by_cases short : stream.unread.length < bitCount
    · have throws := read_bits_refuses valid placed short
      unfold Throws at throws
      rw [throws]
      exact ⟨⟨fun _ => short, fun _ => rfl⟩, fun _ => rfl,
        fun returned => absurd returned.symm Bool.false_ne_true⟩
    · obtain ⟨value, after, runs, rest⟩ := read_bits_reads carrier valid placed (Nat.not_lt.mp short)
      have returned : threw (readBitsImpl n bitCount stream) = false := by
        unfold Runs at runs
        rw [runs]
        rfl
      rw [returned]
      exact ⟨⟨fun thrown => absurd thrown Bool.false_ne_true, fun less => absurd less short⟩,
        fun thrown => absurd thrown Bool.false_ne_true, fun _ => ⟨value, after, runs, rest⟩⟩

theorem reads_exact_and_safe_in_byte :
    let stream := afterReads [.uint8 3, .uint16 9] (create (ByteQueue.mk [0xb5]) true)
    stream.bitReadCount = 3 ∧ threw (readBitsImpl 32 6 stream) = true ∧
      finalState (readBitsImpl 32 6 stream) = stream := by
  intro stream
  have reads := reads_exact_and_safe (ByteQueue.mk [0xb5]) true [.uint8 3, .uint16 9]
  have six := reads.2.2.2 32 6 (.inl rfl) (by decide)
  have thrown := six.1.mpr (by decide)
  exact ⟨rfl, thrown, six.2.1 thrown⟩

end IBitStream

end Sne.Core
