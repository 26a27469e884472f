import Sne.Base.MemoryPool
import Sne.Library.Runs
import Sne.Sgp.CsMessage
import Sne.Sgp.SgpMarshaller

/-!
# The blocks of received messages

Every session of a server has a marshaller, and `AbstractServerSideSessionFactory` gives
all of them one `MemoryBlockManager`. A marshaller acquires two blocks when it is
created and releases them when it is destroyed. `MessagingExtension::handleMessage`
releases the message block of the marshaller when the message in it cannot be
deserialized.
-/

namespace Sne.Server

open Sne.Base Sne.Core Sne.Sgp Sne.Library.Runs

set_option autoImplicit false

/-- The messages that have a callback, with what `serialize` makes of a body. -/
abbrev MessageCallbackMap := MessageType → Option (List UInt8 → Except Exception Unit)

inductive ReceiveBlock where
  | recvBlock
  | msgBlock
  deriving DecidableEq, Repr

/-- The guards of a marshaller. `id` tells marshallers apart. -/
structure ReceiveBlocks where
  id : Nat
  recvBlock : Nat
  msgBlock : Nat
  deriving DecidableEq, Repr

def ReceiveBlocks.addresses (blocks : ReceiveBlocks) : List Nat := [blocks.recvBlock, blocks.msgBlock]

/-- The manager with the marshallers that live and the blocks of messages to send. `releases`
has an entry for each time that a block of a marshaller was released. -/
structure SharedBlocks where
  manager : MemoryPool
  marshallers : List ReceiveBlocks := []
  sendBlocks : List Nat := []
  created : Nat := 0
  releases : List (Nat × ReceiveBlock) := []

namespace SharedBlocks

inductive Label where
  | created
  | destroyed (index : Nat)
  | messageArrived (index : Nat) (messageType : MessageType) (body : List UInt8)
  | acquireSendBlock
  | releaseSendBlock (index : Nat)

def create (blocks : SharedBlocks) : Option SharedBlocks :=
  blocks.manager.acquire.bind fun (recvBlock, manager) =>
    manager.acquire.map fun (msgBlock, manager) =>
      { blocks with
        manager
        marshallers := blocks.marshallers ++ [{ id := blocks.created, recvBlock, msgBlock }]
        created := blocks.created + 1 }

/-- The destructor of a marshaller. Its guards release the blocks, the last member first. -/
def destroy (index : Nat) (blocks : SharedBlocks) : Option SharedBlocks :=
  (blocks.marshallers[index]?).map fun marshaller =>
    { blocks with
      manager := (blocks.manager.release marshaller.msgBlock).release marshaller.recvBlock
      marshallers := blocks.marshallers.eraseIdx index
      releases := blocks.releases ++ [(marshaller.id, .msgBlock), (marshaller.id, .recvBlock)] }

/-- `MessagingExtension::handleMessage` with the message block of a marshaller. -/
def handleMessage (messages : MessageCallbackMap) (marshaller : ReceiveBlocks)
    (messageType : MessageType) (body : List UInt8) (blocks : SharedBlocks) : SharedBlocks :=
  match messages messageType with
  | none => blocks
  | some serialize =>
      match serialize body with
      | .ok () => blocks
      | .error _ =>
          { blocks with
            manager := blocks.manager.release marshaller.msgBlock
            releases := blocks.releases ++ [(marshaller.id, .msgBlock)] }

def acquireSendBlock (blocks : SharedBlocks) : Option SharedBlocks :=
  blocks.manager.acquire.map fun (block, manager) =>
    { blocks with manager, sendBlocks := blocks.sendBlocks ++ [block] }

def releaseSendBlock (index : Nat) (blocks : SharedBlocks) : Option SharedBlocks :=
  (blocks.sendBlocks[index]?).map fun block =>
    { blocks with
      manager := blocks.manager.release block
      sendBlocks := blocks.sendBlocks.eraseIdx index }

def advance (messages : MessageCallbackMap) (blocks : SharedBlocks) : Label → Option SharedBlocks
  | .created => blocks.create
  | .destroyed index => blocks.destroy index
  | .messageArrived index messageType body => (blocks.marshallers[index]?).map fun marshaller =>
      blocks.handleMessage messages marshaller messageType body
  | .acquireSendBlock => blocks.acquireSendBlock
  | .releaseSendBlock index => blocks.releaseSendBlock index

def Step (messages : MessageCallbackMap) (blocks : SharedBlocks) (label : Label)
    (next : SharedBlocks) : Prop :=
  blocks.advance messages label = some next

def owned (blocks : SharedBlocks) : List Nat :=
  blocks.marshallers.flatMap ReceiveBlocks.addresses ++ blocks.sendBlocks

def ids (blocks : SharedBlocks) : List Nat := blocks.marshallers.map ReceiveBlocks.id

/-- The blocks of a marshaller have been released once if it was destroyed, and else not. -/
def ReleasedOnce (blocks : SharedBlocks) : Prop :=
  ∀ id < blocks.created, ∀ block,
    blocks.releases.count (id, block) = if id ∈ blocks.ids then 0 else 1

/-- The blocks of the marshallers that live are not in the queue of the manager and nobody else
has got them. -/
structure SingleOwner (blocks : SharedBlocks) : Prop where
  inactive : ∀ marshaller ∈ blocks.marshallers, ∀ address ∈ marshaller.addresses,
    address ∉ blocks.manager.inactiveResources
  distinct : blocks.owned.Nodup
  once : blocks.ReleasedOnce

def MessageDeserialized (messages : MessageCallbackMap) (_ : SharedBlocks) : Label → Prop
  | .messageArrived _ messageType body => ∀ serialize, messages messageType = some serialize →
      serialize body = .ok ()
  | _ => True

structure Named (blocks : SharedBlocks) : Prop where
  ids : blocks.ids.Nodup
  known : ∀ id ∈ blocks.ids, id < blocks.created
  released : ∀ entry ∈ blocks.releases, entry.1 < blocks.created

structure Held (blocks : SharedBlocks) : Prop where
  distinct : blocks.owned.Nodup
  active : ∀ address, address ∈ blocks.manager.activeResources ↔ address ∈ blocks.owned

theorem Held.single_owner_iff {blocks : SharedBlocks} (held : blocks.ReleasedOnce → blocks.Held) :
    blocks.SingleOwner ↔ blocks.ReleasedOnce := by
  constructor
  · intro owner
    exact owner.once
  · intro once
    refine ⟨?_, (held once).distinct, once⟩
    intro marshaller member address block
    apply MemoryPool.active_not_inactive
    rw [(held once).active]
    exact List.mem_append_left _ (List.mem_flatMap.mpr ⟨marshaller, member, block⟩)

theorem Held.acquire {blocks : SharedBlocks} {address : Nat} {manager : MemoryPool}
    (held : blocks.Held) (acquired : blocks.manager.acquire = some (address, manager)) :
    (address :: blocks.owned).Nodup ∧
      ∀ other, other ∈ manager.activeResources ↔ other ∈ address :: blocks.owned := by
  rcases MemoryPool.acquire_active acquired with ⟨fresh, active⟩
  rw [held.active] at fresh
  constructor
  · exact List.nodup_cons.mpr ⟨fresh, held.distinct⟩
  · intro other
    rw [active, held.active, List.mem_cons]

theorem create_cases {blocks next : SharedBlocks} (created : blocks.create = some next) :
    ∃ recvBlock msgBlock manager first, blocks.manager.acquire = some (recvBlock, first) ∧
      first.acquire = some (msgBlock, manager) ∧
      next = { blocks with
        manager
        marshallers := blocks.marshallers ++ [{ id := blocks.created, recvBlock, msgBlock }]
        created := blocks.created + 1 } := by
  rcases Option.bind_eq_some_iff.mp created with ⟨⟨recvBlock, first⟩, acquired, rest⟩
  rcases Option.map_eq_some_iff.mp rest with ⟨⟨msgBlock, manager⟩, acquiredNext, same⟩
  exact ⟨recvBlock, msgBlock, manager, first, acquired, acquiredNext, same.symm⟩

theorem create_held {blocks next : SharedBlocks} (created : blocks.create = some next)
    (held : blocks.Held) : next.Held := by
  rcases create_cases created with ⟨recvBlock, msgBlock, manager, first, acquired, acquiredNext, same⟩
  rcases held.acquire acquired with ⟨distinct, active⟩
  let middle : SharedBlocks :=
    { blocks with manager := first, sendBlocks := recvBlock :: blocks.sendBlocks }
  have moved : middle.owned.Perm (recvBlock :: blocks.owned) := List.perm_middle
  have heldMiddle : middle.Held := by
    constructor
    · exact moved.nodup_iff.mpr distinct
    · intro address
      rw [moved.mem_iff]
      exact active address
  rcases heldMiddle.acquire acquiredNext with ⟨distinctNext, activeNext⟩
  have all : (msgBlock :: middle.owned).Perm next.owned := by
    apply (moved.cons msgBlock).trans
    rw [same]
    simp only [owned, List.flatMap_append, List.flatMap_singleton, ReceiveBlocks.addresses]
    rw [List.append_assoc]
    apply (List.Perm.swap recvBlock msgBlock _).trans
    exact List.perm_append_comm_assoc [recvBlock, msgBlock] _ _
  constructor
  · exact all.nodup_iff.mp distinctNext
  · intro address
    rw [← all.mem_iff, same]
    exact activeNext address

theorem Held.release {blocks : SharedBlocks} {address : Nat} {rest : List Nat} (held : blocks.Held)
    (split : blocks.owned.Perm (address :: rest)) :
    rest.Nodup ∧ ∀ other, other ∈ (blocks.manager.release address).activeResources ↔ other ∈ rest := by
  have distinct := List.nodup_cons.mp (split.nodup_iff.mp held.distinct)
  refine ⟨distinct.2, ?_⟩
  intro other
  rw [MemoryPool.release_active, held.active, split.mem_iff, List.mem_cons]
  constructor
  · intro member
    exact member.1.resolve_left member.2
  · intro member
    refine ⟨.inr member, ?_⟩
    intro same
    rw [same] at member
    exact distinct.1 member

theorem destroy_cases {blocks next : SharedBlocks} {index : Nat}
    (destroyed : blocks.destroy index = some next) :
    ∃ earlier marshaller later, blocks.marshallers = earlier ++ marshaller :: later ∧
      next = { blocks with
        manager := (blocks.manager.release marshaller.msgBlock).release marshaller.recvBlock
        marshallers := earlier ++ later
        releases := blocks.releases ++ [(marshaller.id, .msgBlock), (marshaller.id, .recvBlock)] } := by
  rcases Option.map_eq_some_iff.mp destroyed with ⟨marshaller, found, same⟩
  rcases split_at found with ⟨earlier, later, split, erased, _⟩
  rw [erased] at same
  exact ⟨earlier, marshaller, later, split, same.symm⟩

theorem destroy_held {blocks next : SharedBlocks} {index : Nat}
    (destroyed : blocks.destroy index = some next) (held : blocks.Held) : next.Held := by
  rcases destroy_cases destroyed with ⟨earlier, marshaller, later, split, same⟩
  have order : blocks.owned.Perm (marshaller.msgBlock :: marshaller.recvBlock :: next.owned) := by
    rw [same]
    simp only [owned, split, List.flatMap_append, List.flatMap_cons, ReceiveBlocks.addresses,
      List.append_assoc]
    apply (List.perm_append_comm_assoc _ [marshaller.recvBlock, marshaller.msgBlock] _).trans
    exact List.Perm.swap _ _ _
  rcases held.release order with ⟨distinct, active⟩
  let middle : SharedBlocks :=
    { manager := blocks.manager.release marshaller.msgBlock
      sendBlocks := marshaller.recvBlock :: next.owned }
  have heldMiddle : middle.Held := ⟨distinct, active⟩
  rcases heldMiddle.release (List.Perm.refl _) with ⟨distinctNext, activeNext⟩
  constructor
  · exact distinctNext
  · intro address
    rw [← activeNext, same]

theorem acquire_send_block_held {blocks next : SharedBlocks}
    (acquires : blocks.acquireSendBlock = some next) (held : blocks.Held) : next.Held := by
  rcases Option.map_eq_some_iff.mp acquires with ⟨⟨address, manager⟩, acquired, same⟩
  rcases held.acquire acquired with ⟨distinct, active⟩
  have moved : next.owned.Perm (address :: blocks.owned) := by
    rw [← same]
    simp only [owned]
    rw [← List.append_assoc]
    exact List.perm_append_singleton address _
  constructor
  · exact moved.nodup_iff.mpr distinct
  · intro other
    rw [moved.mem_iff, ← active, ← same]

theorem release_send_block_held {blocks next : SharedBlocks} {index : Nat}
    (releases : blocks.releaseSendBlock index = some next) (held : blocks.Held) : next.Held := by
  rcases Option.map_eq_some_iff.mp releases with ⟨address, found, same⟩
  rcases split_at found with ⟨earlier, later, split, erased, _⟩
  have order : blocks.owned.Perm (address :: next.owned) := by
    rw [← same]
    simp only [owned, erased]
    rw [split, ← List.append_assoc, ← List.append_assoc]
    exact List.perm_middle
  rcases held.release order with ⟨distinct, active⟩
  constructor
  · exact distinct
  · intro other
    rw [← active, ← same]

/-- A message either leaves the blocks alone, or it cannot be deserialized and the message block of
its marshaller is released. -/
theorem handle_message_cases (messages : MessageCallbackMap) (marshaller : ReceiveBlocks)
    (messageType : MessageType) (body : List UInt8) (blocks : SharedBlocks) :
    let deserialized := ∀ serialize, messages messageType = some serialize → serialize body = .ok ()
    (deserialized ∧ blocks.handleMessage messages marshaller messageType body = blocks) ∨
      ¬deserialized ∧ blocks.handleMessage messages marshaller messageType body =
        { blocks with
          manager := blocks.manager.release marshaller.msgBlock
          releases := blocks.releases ++ [(marshaller.id, .msgBlock)] } := by
  intro deserialized
  unfold handleMessage
  cases registered : messages messageType with
  | none =>
      left
      refine ⟨?_, rfl⟩
      intro serialize same
      rw [registered] at same
      cases same
  | some serialize =>
      cases read : serialize body with
      | ok value =>
          left
          refine ⟨?_, by simp only [read]⟩
          intro other same
          rw [registered] at same
          cases same
          exact read
      | error e =>
          right
          refine ⟨?_, by simp only [read]⟩
          intro all
          have mismatch := (all serialize registered).symm.trans read
          cases mismatch

theorem create_ids {blocks next : SharedBlocks} (created : blocks.create = some next) :
    next.ids = blocks.ids ++ [blocks.created] ∧ next.created = blocks.created + 1 ∧
      next.releases = blocks.releases := by
  rcases create_cases created with ⟨recvBlock, msgBlock, manager, first, _, _, same⟩
  rw [same]
  refine ⟨?_, rfl, rfl⟩
  simp only [ids, List.map_append, List.map_cons, List.map_nil]

theorem destroy_ids {blocks next : SharedBlocks} {index : Nat}
    (destroyed : blocks.destroy index = some next) :
    ∃ id, blocks.ids.Perm (id :: next.ids) ∧ next.created = blocks.created ∧
      next.releases = blocks.releases ++ [(id, .msgBlock), (id, .recvBlock)] := by
  rcases destroy_cases destroyed with ⟨earlier, marshaller, later, split, same⟩
  rw [same]
  refine ⟨marshaller.id, ?_, rfl, rfl⟩
  simp only [ids, split, List.map_append, List.map_cons]
  exact List.perm_middle

theorem create_named {blocks next : SharedBlocks} (created : blocks.create = some next)
    (named : blocks.Named) : next.Named := by
  rcases create_ids created with ⟨ids, count, releases⟩
  have fresh : blocks.created ∉ blocks.ids := fun member => Nat.lt_irrefl _ (named.known _ member)
  constructor
  · rw [ids]
    exact List.nodup_append.mpr ⟨named.ids, List.nodup_singleton _, by
      intro id old other new same
      rw [List.mem_singleton.mp new] at same
      rw [same] at old
      exact fresh old⟩
  · intro id member
    rw [count]
    rw [ids] at member
    rcases List.mem_append.mp member with old | new
    · exact Nat.lt_succ_of_lt (named.known id old)
    · rw [List.mem_singleton.mp new]
      exact Nat.lt_succ_self _
  · intro entry member
    rw [releases] at member
    rw [count]
    exact Nat.lt_succ_of_lt (named.released entry member)

theorem destroy_named {blocks next : SharedBlocks} {index : Nat}
    (destroyed : blocks.destroy index = some next) (named : blocks.Named) : next.Named := by
  rcases destroy_ids destroyed with ⟨id, ids, created, releases⟩
  have distinct := List.nodup_cons.mp (ids.nodup_iff.mp named.ids)
  have known : ∀ other ∈ id :: next.ids, other < next.created := by
    intro other member
    rw [created]
    exact named.known other (ids.mem_iff.mpr member)
  constructor
  · exact distinct.2
  · intro other member
    exact known other (List.mem_cons_of_mem _ member)
  · intro entry member
    rw [releases] at member
    rcases List.mem_append.mp member with old | new
    · rw [created]
      exact named.released entry old
    · simp only [List.mem_cons, List.not_mem_nil, or_false] at new
      rcases new with rfl | rfl
      · exact known id List.mem_cons_self
      · exact known id List.mem_cons_self

variable {messages : MessageCallbackMap}

theorem step_named {blocks next : SharedBlocks} {label : Label} (named : blocks.Named)
    (step : Step messages blocks label next) : next.Named := by
  cases label with
  | created => exact create_named step named
  | destroyed index => exact destroy_named step named
  | messageArrived index messageType body =>
      rcases Option.map_eq_some_iff.mp step with ⟨marshaller, found, same⟩
      have member := List.mem_of_getElem? found
      have bound := named.known marshaller.id (List.mem_map_of_mem member)
      rcases handle_message_cases messages marshaller messageType body blocks with ⟨_, kept⟩ | ⟨_, released⟩
      · rw [← same, kept]
        exact named
      · rw [← same, released]
        refine ⟨named.ids, named.known, ?_⟩
        intro entry member
        rcases List.mem_append.mp member with old | new
        · exact named.released entry old
        · rw [List.mem_singleton.mp new]
          exact bound
  | acquireSendBlock =>
      rcases Option.map_eq_some_iff.mp step with ⟨_, _, same⟩
      rw [← same]
      exact ⟨named.ids, named.known, named.released⟩
  | releaseSendBlock index =>
      rcases Option.map_eq_some_iff.mp step with ⟨_, _, same⟩
      rw [← same]
      exact ⟨named.ids, named.known, named.released⟩

theorem step_held {blocks next : SharedBlocks} {label : Label} (held : blocks.Held)
    (step : Step messages blocks label next) (deserialized : MessageDeserialized messages blocks label) :
    next.Held := by
  cases label with
  | created => exact create_held step held
  | destroyed index => exact destroy_held step held
  | acquireSendBlock => exact acquire_send_block_held step held
  | releaseSendBlock index => exact release_send_block_held step held
  | messageArrived index messageType body =>
      rcases Option.map_eq_some_iff.mp step with ⟨marshaller, found, same⟩
      rcases handle_message_cases messages marshaller messageType body blocks with ⟨_, kept⟩ | ⟨thrown, _⟩
      · rw [← same, kept]
        exact held
      · exact absurd deserialized thrown

theorem create_once {blocks next : SharedBlocks} (named : blocks.Named)
    (created : blocks.create = some next) : next.ReleasedOnce ↔ blocks.ReleasedOnce := by
  rcases create_ids created with ⟨ids, count, releases⟩
  have older : ∀ id < blocks.created, (id ∈ next.ids ↔ id ∈ blocks.ids) := by
    intro id bound
    have other : id ≠ blocks.created := Nat.ne_of_lt bound
    rw [ids, List.mem_append, List.mem_singleton, or_iff_left other]
  unfold ReleasedOnce
  rw [count, releases]
  constructor
  · intro once id bound block
    rw [once id (Nat.lt_succ_of_lt bound) block]
    simp only [older id bound]
  · intro once id bound block
    rcases Nat.lt_succ_iff_lt_or_eq.mp bound with earlier | same
    · rw [once id earlier block]
      simp only [older id earlier]
    · have live : id ∈ next.ids := by
        rw [ids, same]
        exact List.mem_append_right _ List.mem_cons_self
      rw [if_pos live, List.count_eq_zero]
      intro member
      have bound := named.released (id, block) member
      omega

theorem destroy_once {blocks next : SharedBlocks} {index : Nat} (named : blocks.Named)
    (destroyed : blocks.destroy index = some next) : next.ReleasedOnce ↔ blocks.ReleasedOnce := by
  rcases destroy_ids destroyed with ⟨gone, ids, count, releases⟩
  have distinct := List.nodup_cons.mp (ids.nodup_iff.mp named.ids)
  have counts : ∀ id block, next.releases.count (id, block) =
      blocks.releases.count (id, block) + if id = gone then 1 else 0 := by
    intro id block
    rw [releases, List.count_append]
    by_cases same : id = gone
    · subst same
      cases block <;> simp
    · have other : gone ≠ id := fun equal => same equal.symm
      cases block <;> simp [same, other]
  have live : ∀ id, (id ∈ blocks.ids ↔ id = gone ∨ id ∈ next.ids) := by
    intro id
    rw [ids.mem_iff, List.mem_cons]
  unfold ReleasedOnce
  rw [count]
  apply forall_congr'
  intro id
  apply forall_congr'
  intro bound
  apply forall_congr'
  intro block
  rw [counts]
  by_cases same : id = gone
  · have before : id ∈ blocks.ids := (live id).mpr (.inl same)
    have after : id ∉ next.ids := by
      rw [same]
      exact distinct.1
    rw [if_pos same, if_pos before, if_neg after]
    omega
  · simp only [live, same, false_or, if_false, Nat.add_zero]

theorem step_once {blocks next : SharedBlocks} {label : Label} (named : blocks.Named)
    (step : Step messages blocks label next) :
    next.ReleasedOnce ↔ blocks.ReleasedOnce ∧ MessageDeserialized messages blocks label := by
  cases label with
  | created => exact (create_once named step).trans (and_iff_left trivial).symm
  | destroyed index => exact (destroy_once named step).trans (and_iff_left trivial).symm
  | acquireSendBlock =>
      rcases Option.map_eq_some_iff.mp step with ⟨_, _, same⟩
      rw [← same]
      exact (and_iff_left trivial).symm
  | releaseSendBlock index =>
      rcases Option.map_eq_some_iff.mp step with ⟨_, _, same⟩
      rw [← same]
      exact (and_iff_left trivial).symm
  | messageArrived index messageType body =>
      rcases Option.map_eq_some_iff.mp step with ⟨marshaller, found, same⟩
      have live : marshaller.id ∈ blocks.ids := List.mem_map_of_mem (List.mem_of_getElem? found)
      rcases handle_message_cases messages marshaller messageType body blocks with
        ⟨deserialized, kept⟩ | ⟨thrown, released⟩
      · rw [← same, kept]
        exact (and_iff_left deserialized).symm
      · constructor
        · intro once
          rw [← same, released] at once
          have count := once marshaller.id (named.known _ live) .msgBlock
          have stillLive : marshaller.id ∈ { blocks with
            manager := blocks.manager.release marshaller.msgBlock
            releases := blocks.releases ++ [(marshaller.id, ReceiveBlock.msgBlock)] }.ids := live
          rw [if_pos stillLive, List.count_append, List.count_singleton_self] at count
          cases count
        · intro both
          exact absurd both.2 thrown

def fresh (poolSize : Nat) : SharedBlocks := { manager := .create poolSize }

/-- The blocks of received messages have a single owner in exactly the runs in which every
message that arrives for a callback can be deserialized. -/
theorem receive_blocks_owned_iff (messages : MessageCallbackMap) (poolSize : Nat) {labels : List Label}
    {last : SharedBlocks} (run : Run (Step messages) (fresh poolSize) labels last) :
    last.SingleOwner ↔
      Run (Where (Step messages) (MessageDeserialized messages)) (fresh poolSize) labels last := by
  have start : (fresh poolSize).Named := ⟨List.nodup_nil, nofun, nofun⟩
  have held : (fresh poolSize).Held := ⟨List.nodup_nil, fun _ => Iff.rfl⟩
  apply run.safe_iff (fun blocks => blocks.Named ∧ (blocks.ReleasedOnce → blocks.Held)) SingleOwner
    (MessageDeserialized messages) ⟨start, fun _ => held⟩
  · rw [Held.single_owner_iff fun _ => held]
    exact nofun
  · intro blocks label next before step
    refine ⟨step_named before.1 step, ?_⟩
    intro once
    rcases (step_once before.1 step).mp once with ⟨onceBefore, deserialized⟩
    exact step_held (before.2 onceBefore) step deserialized
  · intro blocks label next before step
    have heldNext : next.ReleasedOnce → next.Held := by
      intro once
      rcases (step_once before.1 step).mp once with ⟨onceBefore, deserialized⟩
      exact step_held (before.2 onceBefore) step deserialized
    rw [Held.single_owner_iff heldNext, Held.single_owner_iff before.2]
    exact step_once before.1 step

section Bytes

variable {κ : Type} [PacketCoder κ]

/-- The callback of a marshaller gives each message to the messaging extension and does
nothing else to the blocks. -/
def GivesMessages (messages : MessageCallbackMap) (blocks : ReceiveBlocks)
    (callback : MarshallerCallback κ SharedBlocks) : Prop :=
  ∀ messageType coder mblock shared, match callback messageType (coder, mblock, shared) with
    | .ok _ after => after.2.2 = shared.handleMessage messages blocks messageType mblock.contents
    | .error _ after => after.2.2 = shared.handleMessage messages blocks messageType mblock.contents

theorem handle_message_marshallers (messages : MessageCallbackMap) (marshaller : ReceiveBlocks)
    (messageType : MessageType) (body : List UInt8) (blocks : SharedBlocks) :
    (blocks.handleMessage messages marshaller messageType body).marshallers = blocks.marshallers := by
  rcases handle_message_cases messages marshaller messageType body blocks with ⟨_, kept⟩ | ⟨_, released⟩
  · rw [kept]
  · rw [released]

theorem unmarshal_loop_run {blocks : ReceiveBlocks} {callback : MarshallerCallback κ SharedBlocks}
    (gives : GivesMessages messages blocks callback) {index : Nat} (fuel count : Nat)
    (marshaller : SgpMarshaller κ) (shared : SharedBlocks)
    (found : shared.marshallers[index]? = some blocks) :
    ∃ labels, Run (Step messages) shared labels
        (SgpMarshaller.unmarshalLoop callback fuel count marshaller shared).context ∧
      (SgpMarshaller.unmarshalLoop callback fuel count marshaller shared).context.marshallers =
        shared.marshallers := by
  induction fuel generalizing count marshaller shared with
  | zero => exact ⟨[], .start shared, rfl⟩
  | succ fuel induction =>
      have stops : ∃ labels, Run (Step messages) shared labels shared ∧
          shared.marshallers = shared.marshallers := ⟨[], .start shared, rfl⟩
      unfold SgpMarshaller.unmarshalLoop
      split
      · exact stops
      · dsimp only
        split
        · exact stops
        · split
          · exact stops
          · split
            · exact stops
            · generalize marshaller.parseHeader.2.parseMessage.2 = parsed
              have step := gives parsed.headerForReceive.messageType parsed.packetCoder parsed.msgBlock
                shared
              have taken : Step messages shared
                  (.messageArrived index parsed.headerForReceive.messageType parsed.msgBlock.contents)
                  (shared.handleMessage messages blocks parsed.headerForReceive.messageType
                    parsed.msgBlock.contents) :=
                congrArg (Option.map fun other => shared.handleMessage messages other
                  parsed.headerForReceive.messageType parsed.msgBlock.contents) found
              have kept := handle_message_marshallers messages blocks
                parsed.headerForReceive.messageType parsed.msgBlock.contents shared
              generalize callback parsed.headerForReceive.messageType
                (parsed.packetCoder, parsed.msgBlock, shared) = result at step
              rcases result with ⟨accepted, coder, mblock, after⟩ | ⟨e, coder, mblock, after⟩
              · change after = _ at step
                rw [← step] at taken kept
                cases accepted with
                | true =>
                    rcases induction (count + 1)
                      { parsed with packetCoder := coder, msgBlock := mblock, headerForReceive := .empty }
                      after (by rw [kept]; exact found) with ⟨labels, run, same⟩
                    exact ⟨_, .cons taken run, same.trans kept⟩
                | false => exact ⟨_, .cons taken (.start after), kept⟩
              · change after = _ at step
                rw [← step] at taken kept
                exact ⟨_, .cons taken (.start after), kept⟩

/-- Whatever bytes a session receives, what happens to the blocks is a run of messages. -/
theorem receive_chunks_run {blocks : ReceiveBlocks} {callback : MarshallerCallback κ SharedBlocks}
    (gives : GivesMessages messages blocks callback) {index : Nat} (chunks : List (List UInt8))
    (marshaller : SgpMarshaller κ) (shared : SharedBlocks)
    (found : shared.marshallers[index]? = some blocks) :
    ∃ labels, Run (Step messages) shared labels
      (SgpMarshaller.receiveChunks callback chunks marshaller shared).context := by
  induction chunks generalizing marshaller shared with
  | nil => exact ⟨[], .start shared⟩
  | cons chunk chunks induction =>
      rcases unmarshal_loop_run gives ((marshaller.receive chunk).recvBlock.length + 1) 0
        (marshaller.receive chunk) shared found with ⟨labels, run, same⟩
      unfold SgpMarshaller.receiveChunks SgpMarshaller.unmarshal
      dsimp only
      split
      · rcases induction _ _ (by rw [same]; exact found) with ⟨later, rest⟩
        exact ⟨labels ++ later, run.append rest⟩
      · exact ⟨labels, run⟩

end Bytes

section Concrete

def defaultPacketPoolSize : Nat := 10

def publicKeyCallbacks : MessageCallbackMap := fun messageType =>
  if messageType = csmtSystemExchangePublicKey then
    some fun body => (SneStreamFactory.deserialize
      { shouldUseUtf8ForString := true, useBitPacking := false } ExchangePublicKeyMessage.read body).map
        fun _ => ()
  else
    none

theorem receive_blocks_owned_iff_two_sessions :
    ∃ last, Run (Step publicKeyCallbacks) (fresh 2) [.created, .created,
        .messageArrived 0 2 [1, 0, 7], .acquireSendBlock, .messageArrived 1 2 [0, 0],
        .destroyed 0] last ∧
      last.releases = [(0, .msgBlock), (0, .recvBlock)] ∧
      (last.SingleOwner ↔ Run (Where (Step publicKeyCallbacks) (MessageDeserialized publicKeyCallbacks))
        (fresh 2) [.created, .created, .messageArrived 0 2 [1, 0, 7], .acquireSendBlock,
          .messageArrived 1 2 [0, 0], .destroyed 0] last) := by
  have executes : (execute (advance publicKeyCallbacks) (fresh 2) [.created, .created,
        .messageArrived 0 2 [1, 0, 7], .acquireSendBlock, .messageArrived 1 2 [0, 0],
        .destroyed 0]).map releases = some [(0, .msgBlock), (0, .recvBlock)] := by
    decide +kernel
  rcases Run.of_observed (Step publicKeyCallbacks) (fun _ _ _ taken => taken)
    executes with ⟨last, run, released⟩
  exact ⟨last, run, released, receive_blocks_owned_iff publicKeyCallbacks 2 run⟩

/-- A session gets a public key of five bytes in a body of two. Its message block goes back to
the manager, and the sixth session gets it. -/
theorem undeserialized_message_shares_block :
    ¬∀ labels last, Run (Step publicKeyCallbacks) (fresh defaultPacketPoolSize) labels last →
      last.SingleOwner := by
  intro owned
  have executes : (execute (advance publicKeyCallbacks) (fresh defaultPacketPoolSize) [.created,
        .messageArrived 0 2 [5, 0], .created, .created, .created, .created, .created]).map
      SharedBlocks.owned = some [0, 1, 2, 3, 4, 5, 6, 7, 8, 9, 10, 1] := by
    decide +kernel
  rcases Run.of_observed (Step publicKeyCallbacks) (fun _ _ _ taken => taken)
    executes with ⟨last, run, addresses⟩
  have distinct := (owned _ last run).distinct
  rw [addresses] at distinct
  revert distinct
  decide

end Concrete

end SharedBlocks

end Sne.Server
