import Sne.Library.Runs
import Sne.Session.TcpSessionImpl

/-!
# The write path

A message leaves by a direct write, by a write of the queue's only block or by a
gathered write of at most ten blocks. As long as nothing fails, what was handed to
`async_write` followed by the queue is what the handlers marshalled, in order.
-/

namespace Sne.Session

open Sne.Base Sne.Sgp Sne.Library.Runs

set_option autoImplicit false

namespace TcpSessionImpl

variable {μ : Type}

/-- A connection right after its session was opened, with no limit on the queue. -/
structure Opened (session : TcpSessionImpl μ) : Prop where
  connected : session.isSocketOpen = true
  notReserved : session.disconnectTimer.isRunning = false
  unlimited : session.maxPendablePacketCount = 0
  queue : session.outputQueue = []
  notPended : session.isWritePended = false
  posted : session.posted = []
  writes : session.writes = []

theorem created_opened [Marshaller μ] (now : TimePoint) (marshaller : μ) :
    (create now marshaller 0).sessionOpened.Opened :=
  { connected := rfl, notReserved := rfl, unlimited := rfl, queue := rfl, notPended := rfl
    posted := rfl, writes := rfl }

inductive WriteLabel where
  | sendMessage (mblock : BlockPointer) (messageType : MessageType)
  | handler (marshalled : List UInt8)
  | writeSucceeded (index : Nat)

/-- The steps of a connection on which `marshal` and the writes succeed and nobody
disconnects. A handler step is labelled with the bytes that it marshalled. -/
inductive WriteStep [Marshaller μ] : TcpSessionImpl μ → WriteLabel → TcpSessionImpl μ → Prop where
  | sendMessage {session next : TcpSessionImpl μ} {mblock : BlockPointer} {messageType : MessageType} :
      Step session (.sendMessage mblock messageType) next →
      WriteStep session (.sendMessage mblock messageType) next
  | handler {session next : TcpSessionImpl μ} {mblock : BlockPointer} {messageType : MessageType}
      {rest : List PostedHandler} {block : MemoryBlock} {marshaller : μ} {now : TimePoint} :
      session.posted = .sendMessage mblock messageType :: rest →
      Marshaller.marshal mblock.mblock messageType session.marshaller = (true, block, marshaller) →
      Step session (.handler now) next → WriteStep session (.handler block.contents) next
  | writeSucceeded {session next : TcpSessionImpl μ} {index : Nat} :
      Step session (.writeCompleted index .success) next →
      WriteStep session (.writeSucceeded index) next

/-- The messages in the order in which their handlers ran. -/
def marshalledMessages (labels : List WriteLabel) : List (List UInt8) :=
  labels.filterMap fun
    | .handler marshalled => some marshalled
    | _ => none

def handedMessages (writes : List AsyncWrite) : List (List UInt8) :=
  writes.flatMap AsyncWrite.buffers

theorem gather_blocks_takes (session : TcpSessionImpl μ) (queue : List BlockPointer)
    (few : session.outputMemoryBlocks.length < maxGatherWriteCount) :
    ∃ taken rest, queue = taken ++ rest ∧
      (session.outputMemoryBlocks ++ taken).length ≤ maxGatherWriteCount ∧
      (queue ≠ [] → taken ≠ []) ∧
      session.gatherBlocks queue = { session with
        outputBuffers := session.outputBuffers ++ taken.map BlockPointer.bytes
        outputMemoryBlocks := session.outputMemoryBlocks ++ taken
        outputQueue := rest } := by
  induction queue generalizing session with
  | nil => exact ⟨[], [], rfl, by simpa using few.le, by simp, by simp [gatherBlocks]⟩
  | cons mblock queue induction =>
      simp only [gatherBlocks]
      split
      case isTrue full =>
        exact ⟨[mblock], queue, rfl, by simpa using Nat.succ_le_of_lt few, by simp, by simp⟩
      case isFalse room =>
        obtain ⟨taken, rest, split, bound, -, gathers⟩ := induction { session with
          outputBuffers := session.outputBuffers ++ [mblock.bytes]
          outputMemoryBlocks := session.outputMemoryBlocks ++ [mblock] } (by simpa using room)
        refine ⟨mblock :: taken, rest, by rw [split]; rfl, by simpa using bound, by simp, ?_⟩
        rw [gathers]
        simp

structure Hands (before after : TcpSessionImpl μ) (taken rest : List BlockPointer)
    (write : AsyncWrite) : Prop where
  queue : before.outputQueue = taken ++ rest
  few : taken.length ≤ maxGatherWriteCount
  buffers : write.buffers = taken.map BlockPointer.bytes
  remaining : after.outputQueue = rest
  pended : after.isWritePended = true
  writes : after.writes = before.writes ++ [write]
  handed : after.handed = before.handed ++ [write]
  gathered : ∀ buffers, write = .gather buffers → after.outputMemoryBlocks ≠ []
  connected : after.isSocketOpen = before.isSocketOpen
  disconnectTimer : after.disconnectTimer = before.disconnectTimer
  limit : after.maxPendablePacketCount = before.maxPendablePacketCount

theorem gather_write_many {session : TcpSessionImpl μ} {mblock second : BlockPointer}
    {others : List BlockPointer} (queue : session.outputQueue = mblock :: second :: others) :
    session.gatherWrite =
      let gathered := { session with
        outputBuffers := [], outputMemoryBlocks := [] }.gatherBlocks session.outputQueue
      { gathered.asyncWrite (.gather gathered.outputBuffers) with isWritePended := true } := by
  unfold gatherWrite
  split
  case h_1 empty => simp [empty] at queue
  case h_2 single => simp [single] at queue
  case h_3 => rfl

theorem gather_write_hands (session : TcpSessionImpl μ) (queued : session.outputQueue ≠ []) :
    ∃ taken rest write, Hands session session.gatherWrite taken rest write := by
  rcases queue : session.outputQueue with _ | ⟨mblock, _ | ⟨second, others⟩⟩
  · exact absurd queue queued
  · refine ⟨[mblock], [], .single mblock, ?_⟩
    simp only [gatherWrite, queue, writeMessage, asyncWrite]
    exact { queue := queue, few := by simp [maxGatherWriteCount], buffers := rfl, remaining := rfl
            pended := rfl, writes := rfl, handed := rfl, gathered := by simp, connected := rfl
            disconnectTimer := rfl, limit := rfl }
  · obtain ⟨taken, rest, split, few, nonempty, gathers⟩ := gather_blocks_takes
      { session with outputBuffers := [], outputMemoryBlocks := [] } session.outputQueue
      (by simp [maxGatherWriteCount])
    refine ⟨taken, rest, .gather (taken.map BlockPointer.bytes), ?_⟩
    rw [gather_write_many queue, gathers]
    exact { queue := split, few := few, buffers := rfl, remaining := rfl
            pended := rfl, writes := rfl, handed := rfl
            gathered := fun _ _ => nonempty queued
            connected := rfl, disconnectTimer := rfl, limit := rfl }

structure Pipeline (first : TcpSessionImpl μ) (messages : List (List UInt8))
    (session : TcpSessionImpl μ) : Prop where
  connected : session.isSocketOpen = true
  notReserved : session.disconnectTimer.isRunning = false
  unlimited : session.maxPendablePacketCount = 0
  idle : session.isWritePended = false → session.outputQueue = [] ∧ session.writes = []
  busy : session.isWritePended = true → ∃ write, session.writes = [write] ∧
    ∀ buffers, write = .gather buffers → session.outputMemoryBlocks ≠ []
  handed : ∃ writes, session.handed = first.handed ++ writes ∧
    (∀ write ∈ writes, write.buffers.length ≤ maxGatherWriteCount) ∧
    handedMessages writes ++ session.outputQueue.map BlockPointer.bytes = messages

theorem Opened.pipeline {session : TcpSessionImpl μ} (opened : session.Opened) :
    Pipeline session [] session where
  connected := opened.connected
  notReserved := opened.notReserved
  unlimited := opened.unlimited
  idle _ := ⟨opened.queue, opened.writes⟩
  busy pended := by
    rw [opened.notPended] at pended
    cases pended
  handed := ⟨[], by simp, by simp, by simp [handedMessages, opened.queue]⟩

theorem gather_write_pipeline {first session : TcpSessionImpl μ} {messages : List (List UInt8)}
    (connected : session.isSocketOpen = true)
    (notReserved : session.disconnectTimer.isRunning = false)
    (unlimited : session.maxPendablePacketCount = 0)
    (notPended : session.isWritePended = false) (written : session.writes = [])
    (handed : ∃ writes, session.handed = first.handed ++ writes ∧
      (∀ write ∈ writes, write.buffers.length ≤ maxGatherWriteCount) ∧
      handedMessages writes ++ session.outputQueue.map BlockPointer.bytes = messages) :
    Pipeline first messages session.gatherWrite := by
  by_cases queued : session.outputQueue = []
  · have same : session.gatherWrite = session := by
      simp only [gatherWrite, queued]
    rw [same]
    exact { connected, notReserved, unlimited, handed
            idle := fun _ => ⟨queued, written⟩
            busy := fun pended => by rw [notPended] at pended; cases pended }
  · obtain ⟨taken, rest, write, hands⟩ := session.gather_write_hands queued
    obtain ⟨writes, sofar, bounded, order⟩ := handed
    constructor
    · rw [hands.connected]
      exact connected
    · rw [hands.disconnectTimer]
      exact notReserved
    · rw [hands.limit]
      exact unlimited
    · intro idle
      rw [hands.pended] at idle
      cases idle
    · intro _
      exact ⟨write, by rw [hands.writes, written]; rfl, hands.gathered⟩
    · refine ⟨writes ++ [write], by rw [hands.handed, sofar, List.append_assoc], ?_, ?_⟩
      · intro other member
        rcases List.mem_append.mp member with earlier | last
        · exact bounded other earlier
        · rw [List.mem_singleton.mp last, hands.buffers, List.length_map]
          exact hands.few
      · rw [← order, hands.queue, hands.remaining]
        simp [handedMessages, hands.buffers]

/-- The handler of a message that may be sent and is marshalled. -/
theorem send_message_handler_eq [Marshaller μ] {session : TcpSessionImpl μ}
    {mblock : BlockPointer} {block : MemoryBlock} {messageType : MessageType} {marshaller : μ}
    (sendable : session.canSendMessage = true) (unlimited : session.maxPendablePacketCount = 0)
    (marshals : Marshaller.marshal mblock.mblock messageType session.marshaller =
      (true, block, marshaller)) :
    ∃ logged, session.sendMessageHandler mblock messageType =
      if session.isWritePended then
        { session with
          marshaller
          prevLoggedOutputQueueSize := logged
          outputQueue := session.outputQueue ++ [{ mblock with mblock := block }] }.notify
          (.messageTransfered messageType)
      else
        ({ session with marshaller }.writeMessage { mblock with mblock := block }).notify
          (.messageTransfered messageType) := by
  have accepts : ∃ logged, { session with marshaller }.checkOutputQueue =
      (true, { session with marshaller, prevLoggedOutputQueueSize := logged }) := by
    simp only [checkOutputQueue, unlimited]
    split
    · contradiction
    · split
      · exact ⟨_, rfl⟩
      · exact ⟨_, rfl⟩
  obtain ⟨logged, accepts⟩ := accepts
  refine ⟨logged, ?_⟩
  simp only [sendMessageHandler, sendable, marshals, accepts, Bool.not_true, Bool.false_eq_true,
    if_false, if_true]

theorem handler_pipeline [Marshaller μ] {first session : TcpSessionImpl μ}
    {messages : List (List UInt8)} {mblock : BlockPointer} {block : MemoryBlock}
    {messageType : MessageType}
    {marshaller : μ} (pipeline : Pipeline first messages session)
    (marshals : Marshaller.marshal mblock.mblock messageType session.marshaller =
      (true, block, marshaller)) :
    Pipeline first (messages ++ [block.contents]) (session.sendMessageHandler mblock messageType) := by
  have sendable : session.canSendMessage = true := by
    simp only [canSendMessage, isConnected, shouldBlockWrite, pipeline.connected,
      pipeline.notReserved, Bool.not_false, Bool.and_self]
  obtain ⟨writes, handed, bounded, order⟩ := pipeline.handed
  obtain ⟨logged, handles⟩ := send_message_handler_eq sendable pipeline.unlimited marshals
  rw [handles]
  split
  case isTrue pended =>
    exact {
      connected := pipeline.connected
      notReserved := pipeline.notReserved
      unlimited := pipeline.unlimited
      idle := fun idle => by
        change session.isWritePended = false at idle
        rw [pended] at idle
        cases idle
      busy := pipeline.busy
      handed := ⟨writes, handed, bounded, by
        rw [← order]
        simp [notify, BlockPointer.bytes]⟩ }
  case isFalse idle =>
    obtain ⟨empty, written⟩ := pipeline.idle (Bool.eq_false_iff.mpr idle)
    exact {
      connected := pipeline.connected
      notReserved := pipeline.notReserved
      unlimited := pipeline.unlimited
      idle := fun idle => by cases idle
      busy := fun _ => ⟨.single { mblock with mblock := block }, by
        simp [notify, writeMessage, asyncWrite, written], by simp⟩
      handed := ⟨writes ++ [.single { mblock with mblock := block }], by
        simp [notify, writeMessage, asyncWrite, handed], by
        intro write member
        rcases List.mem_append.mp member with earlier | last
        · exact bounded write earlier
        · rw [List.mem_singleton.mp last]
          simp [AsyncWrite.buffers, maxGatherWriteCount], by
        rw [← order]
        simp [notify, writeMessage, asyncWrite, empty, handedMessages, AsyncWrite.buffers,
          BlockPointer.bytes]⟩ }

theorem gather_written_loop (blocks : List BlockPointer) (session : TcpSessionImpl μ) :
    ∃ stats released, blocks.foldl (gatherWritten .success) session = { session with
      isWritePended := session.isWritePended && blocks.isEmpty, stats, released } := by
  induction blocks generalizing session with
  | nil => exact ⟨session.stats, session.released, by simp⟩
  | cons mblock blocks induction =>
      obtain ⟨stats, released, rounds⟩ := induction
        ((session.writeSucceeded mblock).releaseBlock mblock)
      refine ⟨stats, released, ?_⟩
      rw [List.foldl_cons, gatherWritten, if_pos rfl, rounds]
      simp [writeSucceeded, releaseBlock]

theorem write_completed_pipeline {first session : TcpSessionImpl μ}
    {messages : List (List UInt8)} {earlier later : List AsyncWrite} {write : AsyncWrite}
    (pipeline : Pipeline first messages session)
    (outstanding : session.writes = earlier ++ write :: later) :
    Pipeline first messages
      (writeCompleted .success write { session with writes := earlier ++ later }) := by
  have pended : session.isWritePended = true := by
    by_contra idle
    have none := (pipeline.idle (Bool.eq_false_iff.mpr idle)).2
    simp [none] at outstanding
  obtain ⟨only, single, gathered⟩ := pipeline.busy pended
  rw [single] at outstanding
  obtain ⟨rfl, rfl, rfl⟩ : earlier = [] ∧ write = only ∧ later = [] := by
    cases earlier with
    | nil => simpa [eq_comm] using outstanding
    | cons other others => simp at outstanding
  cases write with
  | single mblock =>
      have next : Pipeline first messages
          ({ session with writes := [] }.writeSucceeded mblock).gatherWrite :=
        gather_write_pipeline pipeline.connected pipeline.notReserved pipeline.unlimited rfl rfl
          pipeline.handed
      exact ⟨next.connected, next.notReserved, next.unlimited, next.idle, next.busy, next.handed⟩
  | gather buffers =>
      obtain ⟨stats, released, rounds⟩ := gather_written_loop session.outputMemoryBlocks
        { session with writes := [] }
      have someBlocks : session.outputMemoryBlocks.isEmpty = false := by
        simpa using gathered buffers rfl
      simp only [writeCompleted, handleGatherWrite, List.append_nil, rounds, if_true]
      apply gather_write_pipeline
      · exact pipeline.connected
      · exact pipeline.notReserved
      · exact pipeline.unlimited
      · simp [someBlocks]
      · rfl
      · exact pipeline.handed

theorem write_step_pipeline [Marshaller μ] {first session next : TcpSessionImpl μ}
    {history : List WriteLabel} {label : WriteLabel}
    (pipeline : Pipeline first (marshalledMessages history) session)
    (step : WriteStep session label next) :
    Pipeline first (marshalledMessages (history ++ [label])) next := by
  cases step with
  | sendMessage taken =>
      cases taken
      simp only [marshalledMessages, List.filterMap_append, List.filterMap_cons, List.filterMap_nil,
        List.append_nil]
      exact ⟨pipeline.connected, pipeline.notReserved, pipeline.unlimited, pipeline.idle,
        pipeline.busy, pipeline.handed⟩
  | handler posted marshals taken =>
      cases taken with
      | handler _ oldest =>
          rw [posted] at oldest
          cases oldest
          simp only [marshalledMessages, List.filterMap_append, List.filterMap_cons, List.filterMap_nil]
          refine handler_pipeline ?_ marshals
          exact ⟨pipeline.connected, pipeline.notReserved, pipeline.unlimited, pipeline.idle,
            pipeline.busy, pipeline.handed⟩
  | writeSucceeded taken =>
      cases taken with
      | writeCompleted earlier _ outstanding =>
          simp only [marshalledMessages, List.filterMap_append, List.filterMap_cons,
            List.filterMap_nil, List.append_nil]
          exact write_completed_pipeline pipeline outstanding

/-- On a connection where nothing fails at most one write is outstanding, the queue is
empty unless a write is pending, and the messages handed to `async_write`, followed by
the queue, are the marshalled messages in the order of their handlers. -/
theorem write_path_fifo [Marshaller μ] {first last : TcpSessionImpl μ} {labels : List WriteLabel}
    (opened : first.Opened) (run : Run WriteStep first labels last) :
    last.writes.length ≤ 1 ∧
      (last.isWritePended = false → last.outputQueue = []) ∧
      ∃ writes, last.handed = first.handed ++ writes ∧
        (∀ write ∈ writes, write.buffers.length ≤ 10) ∧
        handedMessages writes ++ last.outputQueue.map BlockPointer.bytes =
          marshalledMessages labels ∧
        (handedMessages writes).flatten ++ (last.outputQueue.map BlockPointer.bytes).flatten =
          (marshalledMessages labels).flatten := by
  have pipeline : Pipeline first (marshalledMessages labels) last :=
    run.invariant (fun history session => Pipeline first (marshalledMessages history) session)
      opened.pipeline (fun _ _ _ _ before step => write_step_pipeline before step)
  refine ⟨?_, fun idle => (pipeline.idle idle).1, ?_⟩
  · cases pended : last.isWritePended with
    | false => simp [(pipeline.idle pended).2]
    | true =>
        obtain ⟨write, single, _⟩ := pipeline.busy pended
        simp [single]
  · obtain ⟨writes, handed, bounded, order⟩ := pipeline.handed
    refine ⟨writes, handed, bounded, order, ?_⟩
    rw [← List.flatten_append, order]

theorem write_path_fifo_gathers :
    let marshaller := SgpMarshaller.create CsPacketCoder.mk (.create 8) (.create 8)
    ∃ labels last, Run WriteStep (create 0 marshaller 0).sessionOpened labels last ∧
      marshalledMessages labels = [[1, 0, 21, 7], [0, 0, 21], [2, 0, 22, 8, 9]] ∧
      last.handed.map AsyncWrite.buffers = [[[1, 0, 21, 7]], [[0, 0, 21], [2, 0, 22, 8, 9]]] ∧
      last.writes.length ≤ 1 ∧
      (last.isWritePended = false → last.outputQueue = []) ∧
      ∃ writes, last.handed = [] ++ writes ∧
        (∀ write ∈ writes, write.buffers.length ≤ 10) ∧
        handedMessages writes ++ last.outputQueue.map BlockPointer.bytes =
          marshalledMessages labels ∧
        (handedMessages writes).flatten ++ (last.outputQueue.map BlockPointer.bytes).flatten =
          (marshalledMessages labels).flatten := by
  intro marshaller
  let block (address : Nat) (body : List UInt8) : BlockPointer :=
    { address, mblock := (marshaller.acquireSendBlock (.create 8)).copyFrom body }
  have opens : Run WriteStep (create 0 marshaller 0).sessionOpened [] _ := .start _
  have posts := ((opens.next (.sendMessage (.sendMessage _ (block 0 [7]) 21))).next
    (.sendMessage (.sendMessage _ (block 1 []) 21))).next
    (.sendMessage (.sendMessage _ (block 2 [8, 9]) 22))
  have handles := ((posts.next (.handler rfl rfl (.handler 0 rfl))).next
    (.handler rfl rfl (.handler 0 rfl))).next (.handler rfl rfl (.handler 0 rfl))
  have completes := handles.next (.writeSucceeded (.writeCompleted [] .success rfl))
  exact ⟨_, _, completes, by decide, by decide, write_path_fifo (created_opened 0 marshaller) completes⟩

end TcpSessionImpl

end Sne.Session
