import Sne.Library.Simulation
import Sne.Session.Connection
import Sne.Srpc.ReceivedValues
import Sne.Srpc.SgpRpcNetwork

/-!
# What a peer can call

The peer sends whatever bytes it likes. Each message calls at most one method, of the first receiver
that knows its id, with arguments that were read from this message and are within the limits of their
types. The receivers stay as they were declared, also when a message was cut off or refused.
-/

namespace Sne.Srpc

open Sne.Base Sne.Core Sne.Session Sne.Sgp Sne.Library.Exec Sne.Library.Simulation Sne.Library.Runs
  Sne.Library.Orders

set_option autoImplicit false

def RpcReceiver.Limited (less : RpcType.Less) (receiver : RpcReceiver) : Prop :=
  ∀ event ∈ receiver.eventMap, Arguments.Limited less event.types event.arguments

section Events

variable {less : RpcType.Less}

theorem clones_limited (events cloned : RpcEventMap)
    (limited : ∀ event ∈ cloned, Arguments.Limited less event.types event.arguments) :
    ∀ event ∈ events.foldl (fun done event => done.insert event.clone) cloned,
      Arguments.Limited less event.types event.arguments := by
  induction events generalizing cloned with
  | nil => exact limited
  | cons event rest induction =>
      apply induction
      intro other member
      unfold RpcEventMap.insert at member
      dsimp only at member
      split at member
      · exact limited other member
      · rcases List.mem_append.mp member with earlier | last
        · exact limited other earlier
        · rw [List.mem_singleton.mp last]
          exact Arguments.initial_limited event.types

theorem RpcReceiver.Limited.ready {receiver : RpcReceiver} (limited : receiver.Limited less) :
    receiver.ready.Limited less := by
  unfold RpcReceiver.ready
  split
  · exact clones_limited receiver.defaultEventMap receiver.eventMap limited
  · exact limited

theorem RpcReceiver.Limited.store {receiver : RpcReceiver} (limited : receiver.Limited less)
    {event : RpcEvent} {arguments : Arguments event.types}
    (received : Arguments.Limited less event.types arguments) :
    RpcReceiver.Limited less { receiver with eventMap := receiver.eventMap.store event arguments } := by
  intro other member
  obtain ⟨before, among, rfl⟩ := List.mem_map.mp member
  by_cases same : before.rpcId == event.rpcId
  · rw [if_pos same]
    exact received
  · rw [if_neg same]
    exact limited before among

end Events

namespace RpcNetwork

variable {σ : Type} [IStream σ] {less : RpcType.Less}

structure Steady (less : RpcType.Less) (declared : List RpcReceiver)
    (receivers : List RpcReceiver) : Prop where
  consistent : ∀ receiver ∈ receivers, receiver.Consistent
  limited : ∀ receiver ∈ receivers, receiver.Limited less
  classes : classes receivers = RpcNetwork.classes declared

/-- The sets and maps that the methods take have keys in a strict weak order. -/
def OrdersKeys (less : RpcType.Less) (receivers : List RpcReceiver) : Prop :=
  ∀ signatures ∈ classes receivers, ∀ signature ∈ signatures, ∀ type ∈ signature.2, type.OrdersKeys less

structure Called (less : RpcType.Less) (declared : List RpcReceiver) (rpcHint : RpcHint) (istream : σ)
    (invocation : Invocation) : Prop where
  reaches : Reaches (RpcNetwork.classes declared) invocation.rpcId invocation.types invocation.receiver
  limited : Arguments.Limited less invocation.types invocation.arguments
  rpcHint : invocation.rpcHint = rpcHint
  /-- The id and then the arguments stand in the stream. -/
  reads : ∃ middle old last, Runs (IStream.readUInt32 32) istream invocation.rpcId middle ∧
    Runs (Arguments.read less invocation.types old) middle invocation.arguments last

theorem handle_event_calls (less : RpcType.Less) (index : Nat) (receiver : RpcReceiver)
    (event : RpcEvent)
    (rpcHint : RpcHint) (network : RpcNetwork σ) :
    ∃ last, (Runs (handleEvent less index receiver event rpcHint) network true last ∨
        ∃ e, Throws (handleEvent less index receiver event rpcHint) network e last) ∧
      ((∃ istream, last = { network with istream }) ∨
        ∃ arguments middle istream,
          Runs (Arguments.read less event.types event.arguments) network.istream arguments middle ∧
          last = {
            receivers := network.receivers.set index
              { receiver with eventMap := receiver.eventMap.store event arguments }
            istream
            calls := network.calls ++
              [{ receiver := index, rpcId := event.rpcId, types := event.types,
                 arguments, rpcHint }] }) := by
  cases reads : Arguments.read less event.types event.arguments network.istream with
  | error e istream =>
      have throws : Throws (Arguments.read less event.types event.arguments)
          network.istream e istream := reads
      exact ⟨{ network with istream }, .inr ⟨e, throws.focus.bind⟩, .inl ⟨istream, rfl⟩⟩
  | ok arguments middle =>
      have read : Runs (Arguments.read less event.types event.arguments) network.istream arguments middle :=
        reads
      cases aligns : (IStream.align : StreamM σ Unit) middle with
      | ok done istream =>
          have align : Runs (IStream.align : StreamM σ Unit) middle () istream := aligns
          refine ⟨_, .inl (read.focus.bind ((runs_modify _ _).bind ((runs_modify _ _).bind
            (align.focus.bind (runs_pure _ _))))), .inr ⟨arguments, middle, istream, read, rfl⟩⟩
      | error e istream =>
          have align : Throws (IStream.align : StreamM σ Unit) middle e istream := aligns
          refine ⟨_, .inr ⟨e, read.focus.bind_throws ((runs_modify _ _).bind_throws
            ((runs_modify _ _).bind_throws align.focus.bind))⟩, .inr ⟨arguments, middle, istream, read, rfl⟩⟩

structure Asked (less : RpcType.Less) (rpcId : RpcId) (rpcHint : RpcHint) (done rest : List RpcReceiver)
    (network last : RpcNetwork σ) : Prop where
  receivers : ∃ next, last.receivers = done ++ next ∧ Steady less rest next
  calls : last.calls = network.calls ∨ ∃ invocation,
    last.calls = network.calls ++ [invocation] ∧ invocation.rpcId = rpcId ∧ invocation.rpcHint = rpcHint ∧
    (∃ index, invocation.receiver = done.length + index ∧
      Reaches (classes rest) invocation.rpcId invocation.types index) ∧
    Arguments.Limited less invocation.types invocation.arguments ∧
    ∃ old middle, Runs (Arguments.read less invocation.types old) network.istream invocation.arguments middle

/-- The receiver knows the id, and its event is dispatched. -/
theorem handle_known_calls {receiver : RpcReceiver} (consistent : receiver.Consistent) {rpcId : RpcId}
    {types : List RpcType} (knows : receiver.Knows rpcId types) (less : RpcType.Less) (index : Nat)
    (rpcHint : RpcHint) (network : RpcNetwork σ) :
    ∃ old, (⟨rpcId, types, old⟩ : RpcEvent) ∈ receiver.ready.eventMap ∧
      handle less index receiver rpcId rpcHint network =
        handleEvent less index receiver.ready ⟨rpcId, types, old⟩ rpcHint
          (setReceiver index receiver.ready network) := by
  have signatures := consistent.ready_signatures
  have distinct : (receiver.ready.eventMap.signatures.map Prod.fst).Nodup := by
    rw [signatures]
    exact consistent.distinct
  have known : (rpcId, types) ∈ receiver.ready.eventMap.signatures := by
    rw [signatures]
    exact knows
  obtain ⟨old, lookup, member⟩ := RpcEventMap.get_rpc_event_some distinct known
  refine ⟨old, member, ?_⟩
  unfold RpcReceiver.ready at lookup
  unfold handle
  rw [(runs_modify _ network).bind_eq]
  simp only [lookup]
  rfl

theorem store_consistent {receiver : RpcReceiver} (consistent : receiver.Consistent) {event : RpcEvent}
    (member : event ∈ receiver.ready.eventMap) (arguments : Arguments event.types) :
    RpcReceiver.Consistent { receiver.ready with
      eventMap := receiver.ready.eventMap.store event arguments } := by
  have signatures := consistent.ready_signatures
  have distinct : (receiver.ready.eventMap.signatures.map Prod.fst).Nodup := by
    rw [signatures]
    exact consistent.distinct
  constructor
  · rw [receiver.ready_default]
    exact consistent.distinct
  · right
    rw [receiver.ready_default]
    exact (RpcEventMap.store_signatures distinct member arguments).trans signatures

omit [IStream σ] in
theorem steady_cons {receiver next : RpcReceiver} {rest others : List RpcReceiver}
    (consistent : next.Consistent) (limited : next.Limited less)
    (sameDefault : next.defaultEventMap = receiver.defaultEventMap) (steady : Steady less rest others) :
    Steady less (receiver :: rest) (next :: others) := by
  refine ⟨?_, ?_, ?_⟩
  · intro other member
    rcases List.mem_cons.mp member with rfl | later
    · exact consistent
    · exact steady.consistent other later
  · intro other member
    rcases List.mem_cons.mp member with rfl | later
    · exact limited
    · exact steady.limited other later
  · simp only [classes, List.map_cons, sameDefault]
    exact congrArg _ steady.classes

theorem handle_from_calls [LimitsStrings σ] (rpcId : RpcId)
    (rpcHint : RpcHint) {rest : List RpcReceiver} (orders : OrdersKeys less rest)
    (done : List RpcReceiver)
    (network : RpcNetwork σ)
    (whole : network.receivers = done ++ rest) (consistent : ∀ receiver ∈ rest, receiver.Consistent)
    (limited : ∀ receiver ∈ rest, receiver.Limited less) :
    Asked less rpcId rpcHint done rest network
      (finalState (handleFrom less rpcId rpcHint done.length rest network)) := by
  induction rest generalizing done network with
  | nil =>
      have final : finalState (handleFrom less rpcId rpcHint done.length [] network) = network :=
        final_of_runs (runs_pure false network)
      rw [final]
      exact ⟨⟨[], whole, nofun, nofun, rfl⟩, .inl rfl⟩
  | cons receiver rest induction =>
      have first := consistent receiver List.mem_cons_self
      have firstLimited := (limited receiver List.mem_cons_self).ready
      have others := fun other member => consistent other (List.mem_cons_of_mem _ member)
      have othersLimited := fun other member => limited other (List.mem_cons_of_mem _ member)
      have restSteady : Steady less rest rest := ⟨others, othersLimited, rfl⟩
      have replaced : ∀ next, network.receivers.set done.length next = done ++ next :: rest := by
        intro next
        rw [whole, List.set_append_right _ _ (Nat.le_refl _), Nat.sub_self, List.set_cons_zero]
      by_cases known : ∃ types, receiver.Knows rpcId types
      · obtain ⟨types, knows⟩ := known
        obtain ⟨old, member, handles⟩ := handle_known_calls first knows less done.length rpcHint network
        obtain ⟨last, outcome, effect⟩ := handle_event_calls less done.length receiver.ready
          ⟨rpcId, types, old⟩ rpcHint (setReceiver done.length receiver.ready network)
        have final : finalState (handleFrom less rpcId rpcHint done.length (receiver :: rest) network) =
            last := by
          rcases outcome with runs | ⟨e, throws⟩
          · have handled : Runs (handle less done.length receiver rpcId rpcHint) network true last :=
              handles.trans runs
            exact final_of_runs (handled.bind (runs_pure true last))
          · have handled : Throws (handle less done.length receiver rpcId rpcHint) network e last :=
              handles.trans throws
            exact final_of_throws handled.bind
        rw [final]
        rcases effect with ⟨istream, rfl⟩ | ⟨arguments, middle, istream, reads, rfl⟩
        · refine ⟨⟨receiver.ready :: rest, replaced _, ?_⟩, .inl rfl⟩
          exact steady_cons first.ready firstLimited receiver.ready_default restSteady
        · have ordered : ∀ type ∈ types, type.OrdersKeys less :=
            orders receiver.defaultEventMap.signatures List.mem_cons_self (rpcId, types) knows
          have received := (Arguments.read_limited types ordered (firstLimited _ member)).of_runs _ _ _ reads
          refine ⟨⟨_, ?_, steady_cons (store_consistent first member arguments) (firstLimited.store received)
            receiver.ready_default restSteady⟩, .inr ⟨_, rfl, rfl, rfl, ⟨0, rfl, ?_⟩, received, old, middle,
              reads⟩⟩
          · simp only [setReceiver, List.set_set]
            exact replaced _
          · exact ⟨[], _, _, rfl, rfl, fun _ none => absurd none List.not_mem_nil, knows⟩
      · have unknown := fun types knows => known ⟨types, knows⟩
        have asked := handle_unknown first unknown less done.length rpcHint network
        rw [set_receiver_split whole] at asked
        have final : finalState (handleFrom less rpcId rpcHint done.length (receiver :: rest) network) =
            finalState (handleFrom less rpcId rpcHint (done ++ [receiver.ready]).length rest
              { network with receivers := done ++ receiver.ready :: rest }) := by
          rw [handleFrom, asked.bind_eq, if_neg (by decide), List.length_append, List.length_singleton]
        rw [final]
        have ordersRest : OrdersKeys less rest :=
          fun signatures among => orders signatures (List.mem_cons_of_mem _ among)
        have later := induction ordersRest (done ++ [receiver.ready])
          { network with receivers := done ++ receiver.ready :: rest } (by simp) others othersLimited
        obtain ⟨next, receivers, steady⟩ := later.receivers
        refine ⟨⟨receiver.ready :: next, by simpa using receivers,
          steady_cons first.ready firstLimited receiver.ready_default steady⟩, ?_⟩
        rcases later.calls with none | ⟨invocation, calls, sameId, hint, ⟨index, place, reaches⟩, read⟩
        · exact .inl none
        · refine .inr ⟨invocation, calls, sameId, hint, ⟨index + 1, ?_, ?_⟩, read⟩
          · rw [place, List.length_append, List.length_singleton]
            omega
          · obtain ⟨skipped, knowing, after, split, rfl, never, isKnown⟩ := reaches
            refine ⟨receiver.defaultEventMap.signatures :: skipped, knowing, after, ?_, rfl, ?_, isKnown⟩
            · rw [classes, List.map_cons]
              exact congrArg _ split
            · intro other member types
              rcases List.mem_cons.mp member with rfl | later
              · rw [sameId]
                exact unknown types
              · exact never other later types

/-- One message, whatever its bytes are. -/
theorem on_receive_calls [LimitsStrings σ] (rpcHint : RpcHint)
    {declared : List RpcReceiver} (orders : OrdersKeys less declared) (network : RpcNetwork σ)
    (steady : Steady less declared network.receivers) :
    Steady less declared (finalState (onReceive less rpcHint network)).receivers ∧
      ((finalState (onReceive less rpcHint network)).calls = network.calls ∨
        ∃ invocation, (finalState (onReceive less rpcHint network)).calls = network.calls ++ [invocation] ∧
          Called less declared rpcHint network.istream invocation) := by
  cases reads : (IStream.readUInt32 32 : StreamM σ UInt32) network.istream with
  | error e istream =>
      have throws : Throws (IStream.readUInt32 32 : StreamM σ UInt32) network.istream e istream := reads
      have final : finalState (onReceive less rpcHint network) = { network with istream } :=
        final_of_throws throws.focus.bind
      rw [final]
      exact ⟨steady, .inl rfl⟩
  | ok rpcId middle =>
      have readsId : Runs (IStream.readUInt32 32 : StreamM σ UInt32) network.istream rpcId middle := reads
      have ordered : OrdersKeys less network.receivers := by
        unfold OrdersKeys
        rw [steady.classes]
        exact orders
      have asked := handle_from_calls rpcId rpcHint ordered []
        { network with istream := middle } rfl steady.consistent steady.limited
      have final : finalState (onReceive less rpcHint network) =
          finalState (handleFrom less rpcId rpcHint 0 network.receivers
            { network with istream := middle }) := by
        have begun : onReceive less rpcHint network = (handleMessage less rpcId rpcHint >>= fun handled =>
            require handled (unknownRpcMethod rpcId)) { network with istream := middle } :=
          readsId.focus.bind_eq _
        have same : handleMessage less rpcId rpcHint { network with istream := middle } =
            handleFrom less rpcId rpcHint 0 network.receivers { network with istream := middle } := rfl
        rw [begun]
        cases handled : handleFrom less rpcId rpcHint 0 network.receivers
            { network with istream := middle } with
        | error e last => exact final_of_throws (Throws.bind (same.trans handled))
        | ok found last =>
            have runs : Runs (handleMessage less rpcId rpcHint)
                { network with istream := middle } found last :=
              same.trans handled
            cases found with
            | true => exact final_of_runs (runs.bind (runs_require rfl _ _))
            | false => exact final_of_throws (runs.bind_throws (throws_require rfl _ _))
      rw [final]
      obtain ⟨next, receivers, steadyNext⟩ := asked.receivers
      refine ⟨?_, ?_⟩
      · have same : (finalState (handleFrom less rpcId rpcHint 0 network.receivers
            { network with istream := middle })).receivers = next := receivers
        rw [same]
        exact ⟨steadyNext.consistent, steadyNext.limited, steadyNext.classes.trans steady.classes⟩
      · rcases asked.calls with none | ⟨invocation, calls, rfl, hint, ⟨index, place, reaches⟩, limited, old,
          last, read⟩
        · exact .inl none
        · refine .inr ⟨invocation, calls, ?_, limited, hint, middle, old, last, readsId, read⟩
          rw [List.length_nil, Nat.zero_add] at place
          rw [place, ← steady.classes]
          exact reaches

end RpcNetwork

section Peers

variable {κ σ : Type} [BlockIStream σ] [LimitsStrings σ] {less : RpcType.Less}

/-- A call of a method, read from the body of a message that was received at some time. -/
def CalledFrom (less : RpcType.Less) (declared : List RpcReceiver) (body : List UInt8)
    (invocation : Invocation) : Prop :=
  ∃ istream : σ, RpcNetwork.Called less declared 0
    (BlockIStream.resetBlock ⟨body⟩ (IStream.reset false istream)) invocation

structure Answers (less : RpcType.Less) (first network : RpcNetwork σ)
    (messages : List (MessageType × List UInt8)) : Prop where
  steady : RpcNetwork.Steady less first.receivers network.receivers
  calls : ∃ bodies invoked, network.calls = first.calls ++ invoked ∧
    bodies.Sublist (rpcBodies messages) ∧
    List.Forall₂ (CalledFrom (σ := σ) less first.receivers) bodies invoked

omit [LimitsStrings σ] in
theorem handle_message_final (less : RpcType.Less) (mblock : MemoryBlock) (network : RpcNetwork σ) :
    finalState (SgpRpcNetwork.handleMessage less mblock network) =
      finalState (RpcNetwork.onReceive less 0
        { network with istream := deserialize mblock network.istream }) := by
  have begun : SgpRpcNetwork.handleMessage less mblock network =
      (RpcNetwork.onReceive less 0 >>= fun _ => pure true)
        { network with istream := deserialize mblock network.istream } :=
    (runs_modify _ network).bind_eq _
  rw [begun]
  cases received : RpcNetwork.onReceive less 0
      { network with istream := deserialize mblock network.istream } with
  | error e last => exact final_of_throws (Throws.bind received)
  | ok done last => exact final_of_runs (Runs.bind received (runs_pure true last))

theorem Answers.message {first network : RpcNetwork σ}
    (orders : RpcNetwork.OrdersKeys less first.receivers)
    {messages : List (MessageType × List UInt8)} (answers : Answers less first network messages)
    (mblock : MemoryBlock) :
    Answers less first (finalState (SgpRpcNetwork.handleMessage less mblock network))
      (messages ++ [(csmtRpc, mblock.contents)]) := by
  obtain ⟨bodies, invoked, calls, few, each⟩ := answers.calls
  obtain ⟨steady, called⟩ := RpcNetwork.on_receive_calls 0 orders
    { network with istream := deserialize mblock network.istream } answers.steady
  have together : rpcBodies (messages ++ [(csmtRpc, mblock.contents)]) =
      rpcBodies messages ++ [mblock.contents] := rpc_bodies_append _ _
  rw [handle_message_final]
  refine ⟨steady, ?_⟩
  rw [together]
  rcases called with none | ⟨invocation, calledNow, isCalled⟩
  · exact ⟨bodies, invoked, none.trans calls, few.trans (List.sublist_append_left _ _), each⟩
  · refine ⟨bodies ++ [mblock.contents], invoked ++ [invocation], ?_, few.append (List.Sublist.refl _),
      List.rel_append each (.cons ⟨network.istream, isCalled⟩ .nil)⟩
    rw [calledNow, ← List.append_assoc]
    exact congrArg (· ++ [invocation]) calls

omit [LimitsStrings σ] in
theorem Answers.other {first network : RpcNetwork σ} {messages : List (MessageType × List UInt8)}
    (answers : Answers less first network messages) (message : MessageType × List UInt8) (istream : σ) :
    Answers less first { network with istream } (messages ++ [message]) := by
  obtain ⟨bodies, invoked, calls, few, each⟩ := answers.calls
  refine ⟨answers.steady, bodies, invoked, calls, ?_, each⟩
  rw [rpc_bodies_append]
  exact few.trans (List.sublist_append_left _ _)

theorem session_handles_answers {first : RpcNetwork σ}
    (orders : RpcNetwork.OrdersKeys less first.receivers) (others : MarshallerCallback κ σ) :
    Endpoint.KeepsArrived (SgpRpcNetwork.sessionHandles less others) (Answers less first) := by
  intro messageType coder mblock network messages answers
  unfold SgpRpcNetwork.sessionHandles
  by_cases rpc : messageType = csmtRpc
  · rw [if_pos rpc]
    subst rpc
    have next := answers.message orders mblock
    simp only [focus]
    cases handled : SgpRpcNetwork.handleMessage less mblock network with
    | ok accepted last =>
        rw [handled] at next
        exact next
    | error e last =>
        rw [handled] at next
        exact next
  · rw [if_neg rpc]
    simp only [focus]
    cases others messageType (coder, mblock, network.istream) with
    | ok accepted last => exact answers.other _ _
    | error e last => exact answers.other _ _

variable [PlainHeaderCoder κ]

/-- Whatever bytes arrive, in whatever chunks, and whatever else happens to the session: the methods that
its network calls are declared ones of the first receiver that knows the id, each for a message of its
own, in their order, with arguments that were read from it and are within the limits of their types.
What is no request could be forwarded as it is. -/
theorem arbitrary_bytes_call_safely {others : MarshallerCallback κ σ}
    {first last : Endpoint κ (RpcNetwork σ)} {labels : List Endpoint.Label}
    (orders : RpcNetwork.OrdersKeys less first.context.receivers) (consistent : first.context.Consistent)
    (limited : ∀ receiver ∈ first.context.receivers, receiver.Limited less)
    (arrived : first.arrived = [])
    (run : Run (Endpoint.Step (SgpRpcNetwork.sessionHandles less others)) first labels last) :
    last.context.Consistent ∧
      RpcNetwork.classes last.context.receivers = RpcNetwork.classes first.context.receivers ∧
      ∃ bodies invoked, last.context.calls = first.context.calls ++ invoked ∧
        bodies.Sublist (rpcBodies last.arrived) ∧
        List.Forall₂ (CalledFrom (σ := σ) less first.context.receivers) bodies invoked ∧
        ∀ invocation ∈ invoked, (∀ type ∈ invocation.types, type.Plain ∧ type.WellFormed) →
          Arguments.Valid less invocation.types invocation.arguments := by
  have answers : Answers less first.context last.context last.arrived := by
    apply run.invariant fun _ endpoint => Answers less first.context endpoint.context endpoint.arrived
    · rw [arrived]
      exact ⟨⟨consistent, limited, rfl⟩, [], [], (List.append_nil _).symm, List.Sublist.refl _, .nil⟩
    · intro history endpoint label next before step
      exact step.keeps_arrived (session_handles_answers orders others) before
  obtain ⟨bodies, invoked, calls, few, each⟩ := answers.calls
  refine ⟨answers.steady.consistent, answers.steady.classes, bodies, invoked, calls, few, each, ?_⟩
  intro invocation member sendable
  obtain ⟨index, bound, rfl⟩ := List.getElem_of_mem member
  obtain ⟨istream, called⟩ := each.get (each.length_eq ▸ bound) bound
  exact called.limited.valid (fun type among => (sendable type among).1)
    fun type among => (sendable type among).2

end Peers

section Concrete

def octetsLess : RpcType.Less
  | .number .uint8 _, first, second => decide (UInt8.toNat first < UInt8.toNat second)
  | _, _, _ => false

theorem octets_weak_order (bits : Nat) : WeakOrder (octetsLess (.number .uint8 bits)) where
  asymm left right isLess := by
    have smaller : UInt8.toNat left < UInt8.toNat right := of_decide_eq_true isLess
    exact decide_eq_false (Nat.not_lt.mpr (Nat.le_of_lt smaller))
  trans first second third before after := by
    have notBefore : ¬UInt8.toNat first < UInt8.toNat second := of_decide_eq_false before
    have notAfter : ¬UInt8.toNat second < UInt8.toNat third := of_decide_eq_false after
    exact decide_eq_false (by omega)

def named : RpcEvent :=
  { rpcId := 7
    types := [.number .uint8 8, .string 3 16, .multiSet (.number .uint8 8)]
    arguments := Arguments.initial _ }

def listening : Endpoint CsPacketCoder (RpcNetwork (IByteStream ByteQueue)) :=
  .opened 0 SendLedger.smallMarshaller 0
    { receivers := [{ defaultEventMap := [named], eventMap := [] }]
      istream := { streamBuffer := ⟨[]⟩, shouldUseUtf8ForString := true }
      calls := [] }

/-- A call with a string that is too long and a set that is in no order, and then a message that ends
inside its arguments. -/
def intruding : List Endpoint.Label :=
  [.read 0 [16, 0, 21, 7, 0, 0, 0, 9, 5, 0, 65, 66, 67, 68, 69, 2, 0, 6, 4] [] true,
    .read 0 [6, 0, 21, 7, 0, 0, 0, 9, 2] [] true]

def anything : MarshallerCallback CsPacketCoder (RpcNetwork (IByteStream ByteQueue)) :=
  SgpRpcNetwork.sessionHandles octetsLess fun _ state => .ok true state

theorem arbitrary_bytes_call_safely_intruding :
    ∃ last, Run (Endpoint.Step anything) listening intruding last ∧
      last.context.calls.map Invocation.rpcId = [7] ∧ last.connection.isDisconnectRequested = true ∧
      last.context.Consistent ∧
      ∃ bodies invoked, last.context.calls = invoked ∧ bodies.Sublist (rpcBodies last.arrived) ∧
        List.Forall₂ (CalledFrom (σ := IByteStream ByteQueue) octetsLess listening.context.receivers)
          bodies invoked := by
  have executes : (execute (Endpoint.advance anything) listening intruding).map (fun last =>
        (last.context.calls.map Invocation.rpcId, last.connection.isDisconnectRequested)) =
        some ([7], true) := by
    decide +kernel
  rcases Run.of_observed (Endpoint.Step anything) (fun _ _ _ taken => taken) executes with
    ⟨last, run, facts⟩
  simp only [Prod.mk.injEq] at facts
  have orders : RpcNetwork.OrdersKeys octetsLess listening.context.receivers := by
    intro signatures member signature among type used
    rw [List.mem_singleton.mp member] at among
    rw [List.mem_singleton.mp among] at used
    rcases List.mem_cons.mp used with rfl | later
    · trivial
    · rcases List.mem_pair.mp later with rfl | rfl
      · trivial
      · exact ⟨octets_weak_order 8, trivial⟩
  have consistent : listening.context.Consistent := by
    intro receiver member
    rw [List.mem_singleton.mp member]
    exact ⟨List.nodup_singleton _, .inl rfl⟩
  have limited : ∀ receiver ∈ listening.context.receivers, receiver.Limited octetsLess := by
    intro receiver member
    rw [List.mem_singleton.mp member]
    exact fun _ none => absurd none List.not_mem_nil
  obtain ⟨consistentNow, _, bodies, invoked, calls, few, each, _⟩ :=
    arbitrary_bytes_call_safely orders consistent limited rfl run
  exact ⟨last, run, facts.1, facts.2, consistentNow, bodies, invoked, calls, few, each⟩

end Concrete

end Sne.Srpc
