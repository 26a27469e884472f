import Sne.Base.MemoryBlock
import Sne.Core.OBitStream
import Sne.Library.Codec
import Sne.Library.Simulation

/-!
# The output bit stream after a reset

A session keeps one output stream and resets it for every message. `reset` clears the
count of bits but not the position in the last byte. A stream that stands on a byte
boundary writes behind any buffer what a new stream writes into an empty one; one that
does not, goes on in a byte that is not its own.
-/

namespace Sne.Core

open Sne.Library.Exec Sne.Library.Codec Sne.Library.Simulation

set_option autoImplicit false

inductive StreamWrite where
  | uint64 (value : UInt64) (bitCount : Nat)
  | uint32 (value : UInt32) (bitCount : Nat)
  | uint16 (value : UInt16) (bitCount : Nat)
  | uint8 (value : UInt8) (bitCount : Nat)
  | bool (value : Bool) (bitCount : Nat)
  | int64 (value : Int64) (bitCount : Nat)
  | int32 (value : Int32) (bitCount : Nat)
  | int16 (value : Int16) (bitCount : Nat)
  | int8 (value : Int8) (bitCount : Nat)
  | float32 (pattern : UInt32) (bitCount : Nat)
  | enum (value : UInt64) (bitCount : Nat)
  | string (value : List UInt8) (maxLength sizeBitCount : Nat)
  | wstring (value : List WChar) (maxLength sizeBitCount : Nat)
  | buffer (bytes : List UInt8) (length : UInt16)
  | align
  deriving DecidableEq, Repr

def StreamWrite.perform {σ : Type} [OStream σ] : StreamWrite → StreamM σ Unit
  | uint64 value bitCount => OStream.writeUInt64 value bitCount
  | uint32 value bitCount => OStream.writeUInt32 value bitCount
  | uint16 value bitCount => OStream.writeUInt16 value bitCount
  | uint8 value bitCount => OStream.writeUInt8 value bitCount
  | bool value bitCount => OStream.writeBool value bitCount
  | int64 value bitCount => OStream.writeInt64 value bitCount
  | int32 value bitCount => OStream.writeInt32 value bitCount
  | int16 value bitCount => OStream.writeInt16 value bitCount
  | int8 value bitCount => OStream.writeInt8 value bitCount
  | float32 pattern bitCount => OStream.writeFloat32 pattern bitCount
  | enum value bitCount => OStream.writeEnum value bitCount
  | string value maxLength sizeBitCount => OStream.writeString value maxLength sizeBitCount
  | wstring value maxLength sizeBitCount => OStream.writeWString value maxLength sizeBitCount
  | buffer bytes length => OStream.writeBuffer bytes length
  | align => OStream.align

namespace OBitStream

variable {β γ : Type} [FifoBuffer β] [FifoBuffer γ] {header : List UInt8}

/-- One buffer holds the header and then what the other one holds. -/
def Behind (header : List UInt8) (left : β) (right : γ) : Prop :=
  FifoBuffer.contents left = header ++ FifoBuffer.contents right

def BehindSome (header : List UInt8) (left : β) (right : γ) : Prop :=
  Behind header left right ∧ FifoBuffer.contents right ≠ []

/-- Two streams at the same position in a byte, one of them behind the header. -/
structure Follows (header : List UInt8) (left : OBitStream β) (right : OBitStream γ) : Prop where
  holding : left.holdingBitCount = right.holdingBitCount
  mode : left.shouldUseUtf8ForString = right.shouldUseUtf8ForString
  position : right.holdingBitCount < 8
  behind : Behind header left.streamBuffer right.streamBuffer

/-- Between two calls: a byte that is partly filled is there on both sides, or on none. -/
def FollowsHeld (header : List UInt8) (left : OBitStream β) (right : OBitStream γ) : Prop :=
  Follows header left right ∧ (0 < right.holdingBitCount →
    (FifoBuffer.contents left.streamBuffer = [] ↔ FifoBuffer.contents right.streamBuffer = []))

def FollowsSome (header : List UInt8) (left : OBitStream β) (right : OBitStream γ) : Prop :=
  Follows header left right ∧ FifoBuffer.contents right.streamBuffer ≠ []

theorem follows_some_held {left : OBitStream β} {right : OBitStream γ}
    (follows : FollowsSome header left right) : FollowsHeld header left right := by
  refine ⟨follows.1, fun _ => ?_⟩
  have behind := follows.1.behind
  rw [Behind] at behind
  rw [behind, List.append_eq_nil_iff]
  exact ⟨And.right, fun none => absurd none follows.2⟩

theorem push_behind (item : UInt8) :
    Simulates (Behind header) (BehindSome header) (StreamBuffer.push item : StreamM β Unit)
      (StreamBuffer.push item : StreamM γ Unit) := by
  intro left right behind
  rcases FifoBuffer.push_runs item left with ⟨leftAfter, leftRuns, leftContents⟩
  rcases FifoBuffer.push_runs item right with ⟨rightAfter, rightRuns, rightContents⟩
  rw [Behind] at behind
  apply related_runs leftRuns rightRuns
  constructor
  · rw [Behind, leftContents, rightContents, behind, List.append_assoc]
  · rw [rightContents]
    simp

theorem write_left_bits_behind {n : Nat} (fuel leftBitCount : Nat) (theValue : BitVec n) :
    Simulates (BehindSome header) (BehindSome header)
      (writeLeftBits fuel leftBitCount theValue : StreamM β Unit)
      (writeLeftBits fuel leftBitCount theValue : StreamM γ Unit) := by
  induction fuel generalizing leftBitCount theValue with
  | zero => exact simulates_pure _
  | succ fuel induction =>
      have first : Simulates (BehindSome header) (BehindSome header)
          (StreamBuffer.push (toItem theValue) : StreamM β Unit)
          (StreamBuffer.push (toItem theValue) : StreamM γ Unit) := by
        intro left right behind
        exact push_behind _ left right behind.1
      apply first.seq
      intro _
      exact simulates_guarded rfl (induction _ _)

theorem set_back_behind {left : β} {right : γ} (behind : BehindSome header left right) (bits : UInt8) :
    BehindSome header (StreamBuffer.setBack (StreamBuffer.back left ||| bits) left)
      (StreamBuffer.setBack (StreamBuffer.back right ||| bits) right) := by
  rcases behind with ⟨behind, some⟩
  rw [Behind] at behind
  obtain ⟨init, last, split⟩ := (List.eq_nil_or_concat' (FifoBuffer.contents right)).resolve_left some
  have leftSplit : FifoBuffer.contents left = (header ++ init) ++ [last] := by
    rw [behind, split, List.append_assoc]
  rw [FifoBuffer.back_contents right init last split,
    FifoBuffer.back_contents left (header ++ init) last leftSplit]
  constructor
  · rw [Behind, FifoBuffer.setBack_contents left _ _ _ leftSplit,
      FifoBuffer.setBack_contents right _ _ _ split, List.append_assoc]
  · rw [FifoBuffer.setBack_contents right _ _ _ split]
    simp

/-- The stream stands in a byte of an empty buffer. -/
def Stranded (stream : OBitStream β) : Prop :=
  0 < stream.holdingBitCount ∧ FifoBuffer.contents stream.streamBuffer = []

theorem write_first_bits_throws {n : Nat} (theValue : BitVec n) {stream : OBitStream β}
    (stranded : stream.Stranded) :
    Throws (writeFirstBits theValue) stream (.streaming "buffer is empty") stream := by
  apply (runs_get stream).bind_throws
  rw [if_pos stranded.1]
  apply (throws_require _ _ _).bind
  rw [FifoBuffer.empty_contents, stranded.2]
  rfl

theorem write_first_bits_held {n : Nat} (theValue : BitVec n) {stream : OBitStream β}
    (held : 0 < stream.holdingBitCount) (some : FifoBuffer.contents stream.streamBuffer ≠ []) :
    Runs (writeFirstBits theValue) stream () { stream with
      streamBuffer := StreamBuffer.setBack (StreamBuffer.back stream.streamBuffer |||
        toItem (theValue <<< stream.holdingBitCount)) stream.streamBuffer } := by
  have nonempty : (!StreamBuffer.empty stream.streamBuffer) = true := by
    rw [FifoBuffer.empty_contents]
    simpa using some
  apply (runs_get stream).bind
  rw [if_pos held]
  exact (runs_require nonempty _ _).bind (runs_set _ _)

theorem write_first_bits_follows {n : Nat} (theValue : BitVec n) {left : OBitStream β}
    {right : OBitStream γ} (follows : FollowsHeld header left right) (placed : ¬right.Stranded) :
    Related (FollowsSome header) ((writeFirstBits theValue : StreamM (OBitStream β) Unit) left)
      ((writeFirstBits theValue : StreamM (OBitStream γ) Unit) right) := by
  rcases follows with ⟨follows, same⟩
  by_cases held : 0 < right.holdingBitCount
  · have some : FifoBuffer.contents right.streamBuffer ≠ [] := fun none => placed ⟨held, none⟩
    have leftSome : FifoBuffer.contents left.streamBuffer ≠ [] := fun none => some ((same held).mp none)
    have leftRuns := write_first_bits_held theValue (follows.holding ▸ held) leftSome
    have rightRuns := write_first_bits_held theValue held some
    have behind := set_back_behind ⟨follows.behind, some⟩ (toItem (theValue <<< right.holdingBitCount))
    rw [follows.holding] at leftRuns
    exact related_runs leftRuns rightRuns ⟨⟨rfl, follows.mode, follows.position, behind.1⟩, behind.2⟩
  · have leftPush : (writeFirstBits theValue : StreamM (OBitStream β) Unit) left =
        onBuffer (StreamBuffer.push (toItem theValue)) left := by
      change (if _ then _ else _ : StreamM (OBitStream β) Unit) left = _
      rw [if_neg (by rw [follows.holding]; exact held)]
    have rightPush : (writeFirstBits theValue : StreamM (OBitStream γ) Unit) right =
        onBuffer (StreamBuffer.push (toItem theValue)) right := by
      change (if _ then _ else _ : StreamM (OBitStream γ) Unit) right = _
      rw [if_neg held]
    rw [leftPush, rightPush]
    have pushes : Simulates (Follows header) (FollowsSome header)
        (onBuffer (StreamBuffer.push (toItem theValue)) : StreamM (OBitStream β) Unit)
        (onBuffer (StreamBuffer.push (toItem theValue)) : StreamM (OBitStream γ) Unit) :=
      simulates_focus (push_behind (toItem theValue)) (fun _ _ follows => follows.behind)
        (fun _ _ _ _ follows behind =>
          ⟨⟨follows.holding, follows.mode, follows.position, behind.1⟩, behind.2⟩)
    exact pushes left right follows

theorem write_left_bits_follows {n : Nat} (fuel leftBitCount : Nat) (theValue : BitVec n) :
    Simulates (FollowsSome header) (FollowsSome header)
      (onBuffer (writeLeftBits fuel leftBitCount theValue) : StreamM (OBitStream β) Unit)
      (onBuffer (writeLeftBits fuel leftBitCount theValue) : StreamM (OBitStream γ) Unit) :=
  simulates_focus (write_left_bits_behind fuel leftBitCount theValue)
    (fun _ _ follows => ⟨follows.1.behind, follows.2⟩)
    (fun _ _ _ _ follows behind =>
      ⟨⟨follows.1.holding, follows.1.mode, follows.1.position, behind.1⟩, behind.2⟩)

theorem write_bits_follows {n : Nat} (value : BitVec n) (bitCount : Nat) :
    Simulates (FollowsHeld header) (FollowsHeld header)
      (writeBitsImpl value bitCount : StreamM (OBitStream β) Unit)
      (writeBitsImpl value bitCount : StreamM (OBitStream γ) Unit) := by
  apply (simulates_require rfl _).seq
  intro _
  apply simulates_get
  intro left right follows
  by_cases stranded : right.Stranded
  · have leftStranded : left.Stranded :=
      ⟨follows.1.holding ▸ stranded.1, (follows.2 stranded.1).mpr stranded.2⟩
    exact related_throws (write_first_bits_throws (resetUnusedBits value bitCount) leftStranded).bind
      (write_first_bits_throws (resetUnusedBits value bitCount) stranded).bind follows
  · rw [follows.1.holding]
    apply (write_first_bits_follows _ follows stranded).bind (fun _ _ => follows_some_held)
    intro _
    apply (simulates_guarded rfl (write_left_bits_follows _ _ _)).bind (fun _ _ => follows_some_held)
    intro _
    apply simulates_modify
    intro left right some
    apply follows_some_held
    refine ⟨⟨?_, some.1.mode, ?_, some.1.behind⟩, some.2⟩
    · simp only [some.1.holding]
    · change (right.holdingBitCount + bitCount) &&& (2 ^ 3 - 1) < 8
      rw [Nat.and_two_pow_sub_one_eq_mod]
      exact Nat.mod_lt _ (by decide)

theorem align_follows :
    Simulates (FollowsHeld header) (FollowsHeld header) (align : StreamM (OBitStream β) Unit)
      (align : StreamM (OBitStream γ) Unit) := by
  apply simulates_get
  intro left right follows
  rw [follows.1.holding]
  exact simulates_guarded rfl (write_bits_follows _ _) left right follows

theorem write_buffer_follows (buffer : List UInt8) (length : UInt16) :
    Simulates (FollowsHeld header) (FollowsHeld header)
      (writeBuffer buffer length : StreamM (OBitStream β) Unit)
      (writeBuffer buffer length : StreamM (OBitStream γ) Unit) := by
  have copies : Simulates (FollowsHeld header) (FollowsHeld header)
      (onBuffer (StreamBuffer.copyFrom (buffer.take length.toNat)) : StreamM (OBitStream β) Unit)
      (onBuffer (StreamBuffer.copyFrom (buffer.take length.toNat)) : StreamM (OBitStream γ) Unit) := by
    intro left right follows
    rcases FifoBuffer.copyFrom_runs (buffer.take length.toNat) left.streamBuffer with
      ⟨leftAfter, leftCopies, leftContents⟩
    rcases FifoBuffer.copyFrom_runs (buffer.take length.toNat) right.streamBuffer with
      ⟨rightAfter, rightCopies, rightContents⟩
    have leftRuns : Runs (onBuffer (StreamBuffer.copyFrom (buffer.take length.toNat))) left ()
        { left with streamBuffer := leftAfter } := leftCopies.focus
    have rightRuns : Runs (onBuffer (StreamBuffer.copyFrom (buffer.take length.toNat))) right ()
        { right with streamBuffer := rightAfter } := rightCopies.focus
    have behind := follows.1.behind
    rw [Behind] at behind
    apply related_runs leftRuns rightRuns
    refine ⟨⟨follows.1.holding, follows.1.mode, follows.1.position, ?_⟩, ?_⟩
    · rw [Behind, leftContents, rightContents, behind, List.append_assoc]
    · intro held
      rw [leftContents, rightContents, List.append_eq_nil_iff, List.append_eq_nil_iff,
        follows.2 held]
  apply align_follows.seq
  intro _
  apply copies.seq
  intro _
  apply simulates_modify
  intro left right follows
  exact ⟨⟨follows.1.holding, follows.1.mode, follows.1.position, follows.1.behind⟩, follows.2⟩

theorem write_sized_follows (size : UInt32) (sizeBitCount : Nat) (bytes : List UInt8) (length : UInt16) :
    Simulates (FollowsHeld header) (FollowsHeld header)
      (do writeUInt32 size sizeBitCount; writeBuffer bytes length : StreamM (OBitStream β) Unit)
      (do writeUInt32 size sizeBitCount; writeBuffer bytes length : StreamM (OBitStream γ) Unit) := by
  apply (write_bits_follows size.toBitVec sizeBitCount).seq
  intro _
  exact write_buffer_follows bytes length

theorem write_wstring_follows (value : List WChar) (maxLength sizeBitCount : Nat) :
    Simulates (FollowsHeld header) (FollowsHeld header)
      (writeWString value maxLength sizeBitCount : StreamM (OBitStream β) Unit)
      (writeWString value maxLength sizeBitCount : StreamM (OBitStream γ) Unit) := by
  apply simulates_get
  intro left right follows
  rw [follows.1.mode]
  cases right.shouldUseUtf8ForString with
  | true => exact write_sized_follows _ _ _ _ left right follows
  | false => exact write_sized_follows _ _ _ _ left right follows

theorem perform_follows (write : StreamWrite) :
    Simulates (FollowsHeld header) (FollowsHeld header) (write.perform : StreamM (OBitStream β) Unit)
      (write.perform : StreamM (OBitStream γ) Unit) := by
  cases write with
  | uint64 value bitCount => exact write_bits_follows _ _
  | uint32 value bitCount => exact write_bits_follows _ _
  | uint16 value bitCount => exact write_bits_follows _ _
  | uint8 value bitCount => exact write_bits_follows _ _
  | bool value bitCount => exact write_bits_follows _ _
  | int64 value bitCount => exact write_bits_follows _ _
  | int32 value bitCount => exact write_bits_follows _ _
  | int16 value bitCount => exact write_bits_follows _ _
  | int8 value bitCount => exact write_bits_follows _ _
  | float32 pattern bitCount => exact write_bits_follows pattern.toBitVec 32
  | enum value bitCount => exact write_bits_follows _ _
  | string value maxLength sizeBitCount => exact write_sized_follows _ _ _ _
  | wstring value maxLength sizeBitCount => exact write_wstring_follows value maxLength sizeBitCount
  | buffer bytes length => exact write_buffer_follows bytes length
  | align => exact align_follows

/-- The writes of a message; the first exception ends them. -/
def writeAll (writes : List StreamWrite) : StreamM (OBitStream β) Unit :=
  writeEach StreamWrite.perform writes

theorem write_all_follows (writes : List StreamWrite) :
    Simulates (FollowsHeld header) (FollowsHeld header) (writeAll writes : StreamM (OBitStream β) Unit)
      (writeAll writes : StreamM (OBitStream γ) Unit) := by
  induction writes with
  | nil => exact simulates_pure _
  | cons write rest induction =>
      apply (perform_follows write).seq
      intro _
      exact induction

def afterWrites (writes : List StreamWrite) (stream : OBitStream β) : OBitStream β :=
  finalState (writeAll writes stream)

def switchTo (block : β) (stream : OBitStream β) : OBitStream β := { stream with streamBuffer := block }

/-- What can happen to the stream of a session. -/
inductive Reached : OBitStream β → Prop where
  | create (buffer : β) (shouldUseUtf8ForString : Bool) : Reached (create buffer shouldUseUtf8ForString)
  | writes (stream : OBitStream β) (writes : List StreamWrite) : Reached stream →
      Reached (stream.afterWrites writes)
  | reset (stream : OBitStream β) (resetBuffer : Bool) : Reached stream →
      Reached (stream.reset resetBuffer)
  | switchTo (stream : OBitStream β) (block : β) : Reached stream → Reached (stream.switchTo block)

theorem reached_position {stream : OBitStream β} (reached : Reached stream) :
    stream.holdingBitCount < 8 := by
  induction reached with
  | create buffer mode => exact Nat.zero_lt_succ 7
  | writes stream writes _ position =>
      -- the stream beside itself, behind no header
      have beside : FollowsHeld [] stream stream := ⟨⟨rfl, rfl, position, rfl⟩, fun _ => Iff.rfl⟩
      exact (write_all_follows writes stream stream beside).final.1.position
  | reset stream resetBuffer _ position => exact position
  | switchTo stream block _ position => exact position

/-- Every further sequence of writes leaves what is in the buffer, puts behind it what a
new stream puts into an empty buffer, and throws when that does. -/
def AppendsAsFresh (stream : OBitStream β) : Prop :=
  ∀ (writes : List StreamWrite) (buffer : β), FifoBuffer.contents buffer = [] →
    threw (writeAll writes stream) =
      threw (writeAll writes (create buffer stream.shouldUseUtf8ForString)) ∧
    FifoBuffer.contents (stream.afterWrites writes).streamBuffer =
      FifoBuffer.contents stream.streamBuffer ++ FifoBuffer.contents
        ((create buffer stream.shouldUseUtf8ForString).afterWrites writes).streamBuffer

theorem appends_on_boundary {stream : OBitStream β} (boundary : stream.holdingBitCount = 0) :
    stream.AppendsAsFresh := by
  intro writes buffer fresh
  have start : FollowsHeld (FifoBuffer.contents stream.streamBuffer) stream
      (create buffer stream.shouldUseUtf8ForString) := by
    refine ⟨⟨boundary, rfl, Nat.zero_lt_succ 7, ?_⟩, fun held => absurd held (Nat.lt_irrefl 0)⟩
    change FifoBuffer.contents stream.streamBuffer = _ ++ FifoBuffer.contents buffer
    rw [fresh, List.append_nil]
  have related := write_all_follows writes stream _ start
  exact ⟨related.threw_eq, related.final.1.behind⟩

theorem one_bit_runs {stream first : OBitStream β} (position : stream.holdingBitCount < 8)
    (starts : Runs (writeFirstBits (resetUnusedBits (1 : UInt32).toBitVec 1)) stream () first) :
    ∃ after, Runs (writeAll [.uint32 1 1]) stream () after ∧ after.streamBuffer = first.streamBuffer := by
  have fits : decide (1 > charBit - stream.holdingBitCount) = false := by
    unfold charBit
    simp
    omega
  have written : Runs (writeUInt32 1 1) stream () { first with
      holdingBitCount := (first.holdingBitCount + 1) &&& (charBit - 1)
      totalBitCount := (first.totalBitCount + 1).bmod (2 ^ 32) } := by
    apply (runs_require (by decide) _ _).bind
    apply (runs_get stream).bind
    apply starts.bind
    exact (runs_guarded_skip fits _ _).bind (runs_modify _ _)
  exact ⟨_, written.bind (runs_pure () _), rfl⟩

/-- A new stream takes a new byte for it. -/
theorem fresh_takes_byte (buffer : β) (mode : Bool) :
    (FifoBuffer.contents ((create buffer mode).afterWrites [.uint32 1 1]).streamBuffer).length =
      (FifoBuffer.contents buffer).length + 1 := by
  rcases FifoBuffer.push_runs (toItem (resetUnusedBits (1 : UInt32).toBitVec 1)) buffer with
    ⟨pushed, pushes, contents⟩
  have starts : Runs (writeFirstBits (resetUnusedBits (1 : UInt32).toBitVec 1)) (create buffer mode) ()
      (create pushed mode) := by
    have boundary : ¬(create buffer mode).holdingBitCount > 0 := Nat.lt_irrefl 0
    apply (runs_get _).bind
    rw [if_neg boundary]
    exact pushes.focus
  rcases one_bit_runs (Nat.zero_lt_succ 7) starts with ⟨after, runs, same⟩
  rw [afterWrites, final_of_runs runs, same]
  change (FifoBuffer.contents pushed).length = _
  rw [contents, List.length_append, List.length_singleton]

/-- A stream in a byte that is not full takes none, or throws. -/
theorem held_takes_no_byte {stream : OBitStream β} (position : stream.holdingBitCount < 8)
    (held : 0 < stream.holdingBitCount) :
    (FifoBuffer.contents (stream.afterWrites [.uint32 1 1]).streamBuffer).length =
      (FifoBuffer.contents stream.streamBuffer).length := by
  by_cases stranded : stream.Stranded
  · have refused : Throws (writeUInt32 1 1) stream (.streaming "buffer is empty") stream := by
      apply (runs_require (by decide) _ _).bind_throws
      apply (runs_get stream).bind_throws
      exact (write_first_bits_throws _ stranded).bind
    have throws : Throws (writeAll [.uint32 1 1]) stream (.streaming "buffer is empty") stream :=
      refused.bind
    rw [afterWrites, final_of_throws throws]
  · have some : FifoBuffer.contents stream.streamBuffer ≠ [] := fun none => stranded ⟨held, none⟩
    rcases one_bit_runs position (write_first_bits_held _ held some) with ⟨after, runs, same⟩
    obtain ⟨init, last, split⟩ :=
      (List.eq_nil_or_concat' (FifoBuffer.contents stream.streamBuffer)).resolve_left some
    rw [afterWrites, final_of_runs runs, same, FifoBuffer.setBack_contents _ _ _ _ split, split]
    simp

theorem appends_as_fresh_iff {stream : OBitStream β} (position : stream.holdingBitCount < 8) :
    stream.AppendsAsFresh ↔ stream.holdingBitCount = 0 := by
  constructor
  · intro appends
    by_contra off
    have same := (appends [.uint32 1 1] (StreamBuffer.reset stream.streamBuffer)
      (FifoBuffer.reset_contents _)).2
    have length := congrArg List.length same
    rw [held_takes_no_byte position (Nat.pos_of_ne_zero off), List.length_append,
      fresh_takes_byte] at length
    omega
  · exact appends_on_boundary

/-- A reset stream is as good as a new one exactly when it stood on a byte boundary, with
its buffer emptied or with another block, whatever that block holds. -/
theorem reset_forgets_iff {stream : OBitStream β} (reached : Reached stream) (block : β) :
    ((stream.reset true).AppendsAsFresh ↔ stream.holdingBitCount = 0) ∧
      (((stream.reset false).switchTo block).AppendsAsFresh ↔ stream.holdingBitCount = 0) := by
  have position := reached_position reached
  constructor
  · have emptied : (stream.reset true).holdingBitCount < 8 := position
    exact appends_as_fresh_iff emptied
  · have switched : ((stream.reset false).switchTo block).holdingBitCount < 8 := position
    exact appends_as_fresh_iff switched

end OBitStream

end Sne.Core

namespace Sne.Base

open Sne.Core

set_option autoImplicit false

def reservedBlock (headerSize : Nat) (fits : headerSize ≤ 8) : MemoryBlockStreamBuffer :=
  { block := (MemoryBlock.create 8).reset.advanceWrPtr headerSize
    valid := ⟨Nat.zero_le _, by simpa [MemoryBlock.create, MemoryBlock.size, MemoryBlock.reset,
      MemoryBlock.advanceWrPtr] using fits⟩ }

theorem reset_forgets_whole_bytes :
    (((OBitStream.create (reservedBlock 0 (by decide)) true).afterWrites [.uint8 1 1, .align]).reset
      true).AppendsAsFresh :=
  (OBitStream.reset_forgets_iff
    (.writes _ [.uint8 1 1, .align] (.create (reservedBlock 0 (by decide)) true))
    (reservedBlock 4 (by decide))).1.mpr (by decide +kernel)

/-- The serialization of a message throws after its first bit. The two bits of the next
message go into the last byte of the reserved header. -/
theorem reset_keeps_position :
    ¬∀ (stream : OBitStream MemoryBlockStreamBuffer) (block : MemoryBlockStreamBuffer),
      stream.Reached →
      (stream.reset true).AppendsAsFresh ∧ ((stream.reset false).switchTo block).AppendsAsFresh := by
  intro claim
  have both := claim ((OBitStream.create (reservedBlock 4 (by decide)) true).afterWrites
    [.uint8 1 1, .uint32 0 33]) (reservedBlock 4 (by decide)) (.writes _ _ (.create _ _))
  have same := (both.2 [.uint8 3 2] (reservedBlock 0 (by decide)) rfl).2
  exact absurd same (by decide +kernel)

end Sne.Base
