import Mathlib.Data.List.Forall2
import Mathlib.Data.List.Nodup
import Sne.Srpc.RpcNetwork
import Sne.Srpc.RpcRoundTrip

/-!
# Which method a message reaches

A receiver's events are those of its class, also when it has copied them and when
calls have left parameters in them. A message reaches the first receiver that knows
its id, whatever the stream it is read from.
-/

namespace Sne.Srpc

open Sne.Core Sne.Library.Exec

set_option autoImplicit false

def RpcEvent.signature (event : RpcEvent) : RpcId × List RpcType := (event.rpcId, event.types)

namespace RpcEventMap

def signatures (events : RpcEventMap) : List (RpcId × List RpcType) :=
  events.map RpcEvent.signature

theorem get_rpc_event_none {events : RpcEventMap} {rpcId : RpcId}
    (unknown : ∀ types, (rpcId, types) ∉ events.signatures) : events.getRpcEvent rpcId = none := by
  rw [getRpcEvent, List.find?_eq_none]
  intro event member same
  apply unknown event.types
  rw [← eq_of_beq same]
  exact List.mem_map_of_mem member

theorem get_rpc_event_some {events : RpcEventMap} {rpcId : RpcId} {types : List RpcType}
    (distinct : (events.signatures.map Prod.fst).Nodup) (known : (rpcId, types) ∈ events.signatures) :
    ∃ arguments, events.getRpcEvent rpcId = some { rpcId, types, arguments } ∧
      { rpcId, types, arguments } ∈ events := by
  induction events with
  | nil => cases known
  | cons event rest induction =>
      rcases event with ⟨otherId, otherTypes, arguments⟩
      simp only [signatures, List.map_cons, List.nodup_cons] at distinct
      rcases List.mem_cons.mp known with here | later
      · cases here
        exact ⟨arguments, List.find?_cons_of_pos (beq_self_eq_true _), by simp⟩
      · have different : otherId ≠ rpcId := by
          rintro rfl
          exact distinct.1 (List.mem_map.mpr ⟨_, later, rfl⟩)
        rcases induction distinct.2 later with ⟨found, lookup, member⟩
        refine ⟨found, ?_, List.mem_cons_of_mem _ member⟩
        rw [getRpcEvent, List.find?_cons_of_neg (by simpa using different)]
        exact lookup

theorem store_signatures {events : RpcEventMap} {event : RpcEvent}
    (distinct : (events.signatures.map Prod.fst).Nodup) (member : event ∈ events)
    (arguments : Arguments event.types) :
      (events.store event arguments).signatures = events.signatures := by
  rw [signatures, store, signatures, List.map_map]
  apply List.map_congr_left
  intro other among
  simp only [Function.comp_apply]
  split
  case isTrue same =>
    have ids : (events.map RpcEvent.rpcId).Nodup := by
      simpa [signatures, RpcEvent.signature, Function.comp_def] using distinct
    rw [List.inj_on_of_nodup_map ids among member (eq_of_beq same)]
    rfl
  case isFalse => rfl

theorem insert_fresh {events : RpcEventMap} {event : RpcEvent}
    (fresh : event.rpcId ∉ events.signatures.map Prod.fst) :
      events.insert event = events ++ [event] := by
  have missing : events.getRpcEvent event.rpcId = none := by
    apply get_rpc_event_none
    intro types member
    exact fresh (List.mem_map_of_mem member)
  rw [insert, missing]
  rfl

theorem insert_clones (events cloned : RpcEventMap)
    (distinct : ((cloned ++ events).signatures.map Prod.fst).Nodup) :
    (events.foldl (fun done event => insert done event.clone) cloned).signatures =
      (cloned ++ events).signatures := by
  induction events generalizing cloned with
  | nil => simp
  | cons event rest induction =>
      have fresh : event.clone.rpcId ∉ cloned.signatures.map Prod.fst := by
        intro member
        simp only [signatures, List.map_append, List.map_cons, List.nodup_append] at distinct
        exact distinct.2.2 _ member _ (by simp [RpcEvent.signature, RpcEvent.clone]) rfl
      have same : (cloned ++ [event.clone] ++ rest).signatures = (cloned ++ event :: rest).signatures := by
        simp [signatures, RpcEvent.signature, RpcEvent.clone]
      rw [List.foldl_cons, insert_fresh fresh, induction _ (by rw [same]; exact distinct), same]

end RpcEventMap

namespace RpcReceiver

/-- The ids of a class are distinct, and what was copied are the class's events. -/
structure Consistent (receiver : RpcReceiver) : Prop where
  distinct : (receiver.defaultEventMap.signatures.map Prod.fst).Nodup
  cloned : receiver.eventMap = [] ∨
    receiver.eventMap.signatures = receiver.defaultEventMap.signatures

def Knows (receiver : RpcReceiver) (rpcId : RpcId) (types : List RpcType) : Prop :=
  (rpcId, types) ∈ receiver.defaultEventMap.signatures

def ready (receiver : RpcReceiver) : RpcReceiver :=
  if receiver.shouldCloneRpcEvents then receiver.cloneRpcEvents else receiver

theorem ready_default (receiver : RpcReceiver) :
    receiver.ready.defaultEventMap = receiver.defaultEventMap := by
  unfold ready
  split <;> rfl

theorem Consistent.ready_signatures {receiver : RpcReceiver} (consistent : receiver.Consistent) :
    receiver.ready.eventMap.signatures = receiver.defaultEventMap.signatures := by
  unfold ready shouldCloneRpcEvents
  split
  case isTrue empty =>
    have none : receiver.eventMap = [] := by simpa using empty
    have clones := RpcEventMap.insert_clones receiver.defaultEventMap [] consistent.distinct
    rw [cloneRpcEvents, none]
    exact clones
  case isFalse some =>
    rcases consistent.cloned with none | same
    · simp [none] at some
    · exact same

theorem Consistent.ready {receiver : RpcReceiver} (consistent : receiver.Consistent) :
    receiver.ready.Consistent :=
  { distinct := by rw [ready_default]; exact consistent.distinct
    cloned := .inr (by rw [consistent.ready_signatures, ready_default]) }

end RpcReceiver

namespace Arguments

def Same : (types : List RpcType) → Arguments types → Arguments types → Prop
  | [], _, _ => True
  | type :: rest, left, right => type.Same left.1 right.1 ∧ Same rest left.2 right.2

theorem eq_of_same {types : List RpcType} (plain : ∀ type ∈ types, type.Plain)
    {left right : Arguments types} (same : Same types left right) : left = right := by
  induction types with
  | nil => rfl
  | cons type rest induction =>
      exact Prod.ext (type.eq_of_same (plain type List.mem_cons_self) _ _ same.1)
        (induction (fun other member => plain other (List.mem_cons_of_mem _ member)) same.2)

end Arguments

def RpcCommand.Invoked (command : RpcCommand) (index : Nat) (rpcHint : RpcHint)
    (invocation : Invocation) : Prop :=
  ∃ arguments, Arguments.Same command.types command.arguments arguments ∧
    invocation = { receiver := index, rpcId := command.rpcId, types := command.types, arguments, rpcHint }

/-- The stream lets a receiver read the command and is then left in a state that `After`
describes. -/
def RpcCommand.Readable {σ : Type} [IStream σ] (less : RpcType.Less) (command : RpcCommand)
    (After : σ → Prop) (istream : σ) : Prop :=
  ∃ middle, Runs (IStream.readUInt32 32) istream command.rpcId middle ∧
    ∀ old, ∃ arguments last after,
      Runs (Arguments.read less command.types old) middle arguments last ∧
      Arguments.Same command.types command.arguments arguments ∧
      Runs IStream.align last () after ∧ After after

namespace RpcNetwork

variable {σ : Type} [IStream σ]

def Consistent (network : RpcNetwork σ) : Prop :=
  ∀ receiver ∈ network.receivers, receiver.Consistent

def classes (receivers : List RpcReceiver) : List (List (RpcId × List RpcType)) :=
  receivers.map fun receiver => receiver.defaultEventMap.signatures

/-- The first class that has a method of this id has it at `index`. -/
def Reaches (classes : List (List (RpcId × List RpcType))) (rpcId : RpcId) (types : List RpcType)
    (index : Nat) : Prop :=
  ∃ skipped known later, classes = skipped ++ known :: later ∧ skipped.length = index ∧
    (∀ other ∈ skipped, ∀ types, (rpcId, types) ∉ other) ∧ (rpcId, types) ∈ known

omit [IStream σ] in
theorem set_receiver_split {network : RpcNetwork σ} {done rest : List RpcReceiver}
    {receiver : RpcReceiver} (whole : network.receivers = done ++ receiver :: rest)
    (next : RpcReceiver) :
    setReceiver done.length next network = { network with receivers := done ++ next :: rest } := by
  rw [setReceiver, whole, List.set_append_right _ _ (Nat.le_refl _), Nat.sub_self]
  rfl

theorem handle_unknown {receiver : RpcReceiver} (consistent : receiver.Consistent) {rpcId : RpcId}
    (unknown : ∀ types, ¬receiver.Knows rpcId types) (less : RpcType.Less) (index : Nat)
    (rpcHint : RpcHint) (network : RpcNetwork σ) :
    Runs (handle less index receiver rpcId rpcHint) network false
      (setReceiver index receiver.ready network) := by
  have missing : receiver.ready.eventMap.getRpcEvent rpcId = none := by
    apply RpcEventMap.get_rpc_event_none
    rw [consistent.ready_signatures]
    exact unknown
  unfold RpcReceiver.ready at missing
  unfold handle
  apply (runs_modify _ network).bind
  simp only [missing]
  exact runs_pure _ _

theorem handle_known {receiver : RpcReceiver} (consistent : receiver.Consistent)
    {command : RpcCommand} (knows : receiver.Knows command.rpcId command.types) {less : RpcType.Less}
    {After : σ → Prop} {network : RpcNetwork σ}
    (readable : ∀ old, ∃ arguments last after,
      Runs (Arguments.read less command.types old) network.istream arguments last ∧
      Arguments.Same command.types command.arguments arguments ∧
      Runs IStream.align last () after ∧ After after) (index : Nat) (rpcHint : RpcHint) :
    ∃ next after invocation, Runs (handle less index receiver command.rpcId rpcHint) network true
        { receivers := (network.receivers.set index receiver.ready).set index next
          istream := after
          calls := network.calls ++ [invocation] } ∧
      next.Consistent ∧ next.defaultEventMap = receiver.defaultEventMap ∧
      command.Invoked index rpcHint invocation ∧ After after := by
  have signatures := consistent.ready_signatures
  have distinct : (receiver.ready.eventMap.signatures.map Prod.fst).Nodup := by
    rw [signatures]
    exact consistent.distinct
  have known : (command.rpcId, command.types) ∈ receiver.ready.eventMap.signatures := by
    rw [signatures]
    exact knows
  rcases RpcEventMap.get_rpc_event_some distinct known with ⟨old, lookup, member⟩
  rcases readable old with ⟨arguments, last, after, reads, same, aligns, afterwards⟩
  have stored := RpcEventMap.store_signatures distinct member arguments
  let event : RpcEvent := { rpcId := command.rpcId, types := command.types, arguments := old }
  refine ⟨{ receiver.ready with eventMap := receiver.ready.eventMap.store event arguments }, after,
    _, ?_, ?_, receiver.ready_default, ⟨arguments, same, rfl⟩, afterwards⟩
  · unfold handle
    apply (runs_modify _ network).bind
    unfold RpcReceiver.ready at lookup
    simp only [lookup]
    apply (Runs.focus reads).bind
    apply (runs_modify _ _).bind
    apply (runs_modify _ _).bind
    exact (Runs.focus aligns).bind (runs_pure _ _)
  · constructor
    · rw [receiver.ready_default]
      exact consistent.distinct
    · right
      rw [receiver.ready_default]
      exact stored.trans signatures

theorem handle_from_known {command : RpcCommand} {less : RpcType.Less} {After : σ → Prop}
    {rest : List RpcReceiver} {done : List RpcReceiver} {network : RpcNetwork σ} {index : Nat}
    (whole : network.receivers = done ++ rest) (consistent : ∀ receiver ∈ rest, receiver.Consistent)
    (reaches : Reaches (classes rest) command.rpcId command.types index)
    (readable : ∀ old, ∃ arguments last after,
      Runs (Arguments.read less command.types old) network.istream arguments last ∧
      Arguments.Same command.types command.arguments arguments ∧
      Runs IStream.align last () after ∧ After after) (rpcHint : RpcHint) :
    ∃ next after invocation, Runs (handleFrom less command.rpcId rpcHint done.length rest) network true
        { receivers := done ++ next, istream := after, calls := network.calls ++ [invocation] } ∧
      (∀ receiver ∈ next, receiver.Consistent) ∧ classes next = classes rest ∧
      command.Invoked (done.length + index) rpcHint invocation ∧ After after := by
  induction rest generalizing done network index with
  | nil =>
      rcases reaches with ⟨skipped, known, later, empty, _⟩
      simp [classes] at empty
  | cons receiver rest induction =>
      have first := consistent receiver (by simp)
      have others : ∀ other ∈ rest, other.Consistent := fun other member =>
        consistent other (by simp [member])
      rcases reaches with ⟨skipped, known, later, split, rfl, unknown, knows⟩
      cases skipped with
      | nil =>
          simp only [classes, List.map_cons, List.nil_append, List.cons.injEq] at split
          rw [← split.1] at knows
          rcases handle_known first knows readable done.length rpcHint with
            ⟨next, after, invocation, runs, nextConsistent, sameDefault, invoked, afterwards⟩
          refine ⟨next :: rest, after, invocation, ?_, ?_, ?_, invoked, afterwards⟩
          · apply Runs.bind runs
            rw [if_pos rfl]
            simp only [whole, List.set_append_right _ _ (Nat.le_refl _), Nat.sub_self, List.set_cons_zero]
            exact runs_pure _ _
          · intro other member
            rcases List.mem_cons.mp member with rfl | among
            · exact nextConsistent
            · exact others other among
          · simp only [classes, List.map_cons, sameDefault]
      | cons other skipped =>
          simp only [classes, List.map_cons, List.cons_append, List.cons.injEq] at split
          have unknownFirst : ∀ types, ¬receiver.Knows command.rpcId types := by
            intro types knowsFirst
            apply unknown other (by simp) types
            rw [← split.1]
            exact knowsFirst
          have asked := handle_unknown first unknownFirst less done.length rpcHint network
          rw [set_receiver_split whole] at asked
          have reachesRest : Reaches (classes rest) command.rpcId command.types skipped.length :=
            ⟨skipped, known, later, split.2, rfl, fun item member => unknown item (by simp [member]),
              knows⟩
          rcases @induction (done ++ [receiver.ready])
              { network with receivers := done ++ receiver.ready :: rest } skipped.length
              (by simp) others reachesRest readable with
            ⟨next, after, invocation, runs, nextConsistent, sameClasses, invoked, afterwards⟩
          refine ⟨receiver.ready :: next, after, invocation, ?_, ?_, ?_, ?_, afterwards⟩
          · apply asked.bind
            rw [if_neg (by decide)]
            simpa using runs
          · intro item member
            rcases List.mem_cons.mp member with rfl | among
            · exact first.ready
            · exact nextConsistent item among
          · simp only [classes, List.map_cons, receiver.ready_default] at sameClasses ⊢
            rw [sameClasses]
          · rw [List.length_append, List.length_singleton, Nat.add_assoc, Nat.add_comm 1] at invoked
            exact invoked

theorem handle_from_unknown {rpcId : RpcId} {rest done : List RpcReceiver} {network : RpcNetwork σ}
    (whole : network.receivers = done ++ rest) (consistent : ∀ receiver ∈ rest, receiver.Consistent)
    (unknown : ∀ receiver ∈ rest, ∀ types, ¬receiver.Knows rpcId types) (less : RpcType.Less)
    (rpcHint : RpcHint) :
    Runs (handleFrom less rpcId rpcHint done.length rest) network false
      { network with receivers := done ++ rest.map RpcReceiver.ready } := by
  induction rest generalizing done network with
  | nil =>
      rw [List.map_nil, ← whole]
      exact runs_pure _ _
  | cons receiver rest induction =>
      have asked := handle_unknown (consistent receiver (by simp)) (unknown receiver (by simp)) less
        done.length rpcHint network
      rw [set_receiver_split whole] at asked
      have later := @induction (done ++ [receiver.ready])
        { network with receivers := done ++ receiver.ready :: rest } (by simp)
        (fun other member => consistent other (by simp [member]))
        (fun other member => unknown other (by simp [member]))
      apply asked.bind
      rw [if_neg (by decide)]
      simpa using later

theorem on_receive_known {command : RpcCommand} {less : RpcType.Less} {After : σ → Prop}
    {network : RpcNetwork σ} {index : Nat} (consistent : network.Consistent)
    (reaches : Reaches (classes network.receivers) command.rpcId command.types index)
    (readable : command.Readable less After network.istream) (rpcHint : RpcHint) :
    ∃ next invocation, Runs (onReceive less rpcHint) network () next ∧ next.Consistent ∧
      classes next.receivers = classes network.receivers ∧
      next.calls = network.calls ++ [invocation] ∧ command.Invoked index rpcHint invocation ∧
      After next.istream := by
  rcases readable with ⟨middle, readsId, readsArguments⟩
  rcases @handle_from_known σ _ command less After network.receivers []
      { network with istream := middle } index rfl consistent reaches readsArguments rpcHint with
    ⟨receivers, after, invocation, runs, nextConsistent, sameClasses, invoked, afterwards⟩
  rw [List.length_nil, Nat.zero_add] at invoked
  refine ⟨{ receivers, istream := after, calls := network.calls ++ [invocation] }, invocation, ?_,
    nextConsistent, sameClasses, rfl, invoked, afterwards⟩
  apply (Runs.focus readsId).bind
  apply ((runs_get _).bind runs).bind
  exact runs_require rfl _ _

theorem on_receive_unknown {rpcId : RpcId} {network : RpcNetwork σ} {middle : σ}
    (consistent : network.Consistent)
    (readsId : Runs (IStream.readUInt32 32) network.istream rpcId middle)
    (unknown : ∀ receiver ∈ network.receivers, ∀ types, ¬receiver.Knows rpcId types)
    (less : RpcType.Less) (rpcHint : RpcHint) :
    ∃ after, Throws (onReceive less rpcHint) network (unknownRpcMethod rpcId) after ∧
      after.calls = network.calls := by
  have asked := @handle_from_unknown σ _ rpcId network.receivers [] { network with istream := middle }
    rfl consistent unknown less rpcHint
  refine ⟨{ network with istream := middle, receivers := network.receivers.map RpcReceiver.ready },
    ?_, rfl⟩
  apply (Runs.focus readsId).bind_throws
  apply ((runs_get _).bind asked).bind_throws
  exact throws_require rfl _ _

abbrev Delivery := RpcCommand × RpcHint

/-- The method that the delivery is for was called once, on the first receiver that knows
the id. -/
def Delivered (receivers : List RpcReceiver) (delivery : Delivery) (invocation : Invocation) : Prop :=
  ∃ index, Reaches (classes receivers) delivery.1.rpcId delivery.1.types index ∧
    delivery.1.Invoked index delivery.2 invocation

theorem receive_each_delivers {less : RpcType.Less} {holds : σ → List UInt8 → Prop}
    {encode : RpcCommand → List UInt8} {deliveries : List Delivery}
    (readable : ∀ delivery ∈ deliveries, ∀ istream rest, holds istream (encode delivery.1 ++ rest) →
      delivery.1.Readable less (fun after => holds after rest) istream)
    {network : RpcNetwork σ} (consistent : network.Consistent)
    (reaches : ∀ delivery ∈ deliveries, ∃ index,
      Reaches (classes network.receivers) delivery.1.rpcId delivery.1.types index)
    {rest : List UInt8}
    (held : holds network.istream (deliveries.flatMap (fun delivery => encode delivery.1) ++ rest)) :
    ∃ after invoked, Runs (receiveEach less (deliveries.map Prod.snd)) network () after ∧
      after.Consistent ∧ classes after.receivers = classes network.receivers ∧
      holds after.istream rest ∧ after.calls = network.calls ++ invoked ∧
      List.Forall₂ (Delivered network.receivers) deliveries invoked := by
  induction deliveries generalizing network with
  | nil => exact ⟨network, [], runs_pure _ _, consistent, rfl, held, by simp, .nil⟩
  | cons delivery others induction =>
      rw [List.flatMap_cons, List.append_assoc] at held
      rcases reaches delivery (by simp) with ⟨index, reachesFirst⟩
      rcases on_receive_known consistent reachesFirst
          (readable delivery (by simp) _ _ held) delivery.2 with
        ⟨next, invocation, runs, nextConsistent, sameClasses, calls, invoked, nextHeld⟩
      have reachesOthers : ∀ other ∈ others, ∃ index,
          Reaches (classes next.receivers) other.1.rpcId other.1.types index := by
        intro other member
        rw [sameClasses]
        exact reaches other (by simp [member])
      rcases induction (fun other member => readable other (by simp [member])) nextConsistent
          reachesOthers nextHeld with ⟨after, laterInvoked, laterRuns, laterConsistent, laterClasses,
            laterHeld, laterCalls, delivered⟩
      refine ⟨after, invocation :: laterInvoked, runs.bind laterRuns, laterConsistent,
        laterClasses.trans sameClasses, laterHeld, ?_, ?_⟩
      · rw [laterCalls, calls, List.append_assoc]
        rfl
      · apply List.Forall₂.cons ⟨index, reachesFirst, invoked⟩
        have sameDelivered : Delivered next.receivers = Delivered network.receivers := by
          funext other invocation
          rw [Delivered, sameClasses, Delivered]
        rw [← sameDelivered]
        exact delivered

end RpcNetwork

end Sne.Srpc
