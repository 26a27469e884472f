import Sne.Core.IBitStream
import Sne.Library.Orders
import Sne.Srpc.RpcCommandCodec

/-!
# What can be received

Nothing is assumed of the bytes. A string is cut at its maximal length, a container has no more
elements than its size field can count, and a set or a map is in its order, however the elements
came. The order of its keys has to be one for this: `<` on floats is none, because of the NaN. A
`Param` keeps the fields that its type does not select, and these were received before.
-/

namespace Sne.Srpc

open Sne.Core Sne.Library.Exec Sne.Library.Codec Sne.Library.Orders

set_option autoImplicit false

/-- An input stream that never returns a string longer than it was asked for. -/
class LimitsStrings (σ : Type) [IStream σ] : Prop where
  readString : ∀ maxLength sizeBits, Returns (fun value => value.length ≤ maxLength)
    (IStream.readString maxLength sizeBits : StreamM σ (List UInt8))
  readWString : ∀ maxLength sizeBits, Returns (fun value => value.length ≤ maxLength)
    (IStream.readWString maxLength sizeBits : StreamM σ (List WChar))

section Streams

variable {α β : Type} [StreamBuffer β]

theorem take_limited (maxLength : Nat) (value : List α) : (value.take maxLength).length ≤ maxLength :=
  List.length_take_le _ _

theorem none_limited (maxLength : Nat) : ([] : List α).length ≤ maxLength := Nat.zero_le _

instance : LimitsStrings (IByteStream β) where
  readString maxLength sizeBits := by
    apply returns_bind
    intro size
    split
    · exact returns_bind fun bytes => returns_pure (take_limited _ _)
    · exact returns_pure (none_limited _)
  readWString maxLength sizeBits := by
    apply returns_bind
    intro strLen
    apply returns_bind
    intro stream
    split
    · split
      · exact returns_bind fun utf8 => returns_pure (take_limited _ _)
      · exact returns_bind fun value => returns_pure (take_limited _ _)
    · exact returns_pure (none_limited _)

instance : LimitsStrings (IBitStream β) where
  readString maxLength sizeBits := by
    apply returns_bind
    intro strLen
    split
    · exact returns_bind fun bytes => returns_pure (take_limited _ _)
    · exact returns_pure (none_limited _)
  readWString maxLength sizeBits := by
    apply returns_bind
    intro strLen
    apply returns_bind
    intro stream
    split
    · split
      · exact returns_bind fun bytes => returns_pure (take_limited _ _)
      · exact returns_bind fun bytes => returns_pure (take_limited _ _)
    · exact returns_pure (none_limited _)

end Streams

section Inserting

variable {α κ ν : Type} {less : α → α → Bool}

structure Inserts (insert : α → List α → List α) (Ordered : List α → Prop) : Prop where
  empty : Ordered []
  grows : ∀ value container, (insert value container).length ≤ container.length + 1
  members : ∀ value container other, other ∈ insert value container → other = value ∨ other ∈ container
  ordered : ∀ value container, Ordered container → Ordered (insert value container)

theorem push_back_inserts : Inserts (pushBack : α → List α → List α) fun _ => True where
  empty := trivial
  grows value container := by rw [pushBack, List.length_append, List.length_singleton]
  members value container other member :=
    (List.mem_append.mp member).elim .inr fun last => .inl (List.mem_singleton.mp last)
  ordered _ _ _ := trivial

theorem insert_unique_grows (value : α) (container : List α) :
    (insertUnique less value container).length ≤ container.length + 1 := by
  induction container with
  | nil => exact Nat.le_refl _
  | cons other rest induction =>
      rw [insertUnique]
      split
      · exact Nat.succ_le_succ induction
      · split
        · exact Nat.le_refl _
        · exact Nat.le_succ _

theorem insert_unique_members (value : α) (container : List α) (other : α)
    (member : other ∈ insertUnique less value container) : other = value ∨ other ∈ container := by
  induction container with
  | nil => exact .inl (List.mem_singleton.mp member)
  | cons first rest induction =>
      rw [insertUnique] at member
      split at member
      · rcases List.mem_cons.mp member with rfl | later
        · exact .inr List.mem_cons_self
        · exact (induction later).imp_right (List.mem_cons_of_mem _)
      · split at member
        · exact List.mem_cons.mp member
        · exact .inr member

/-- A value goes in front of the first element that it is less than. -/
theorem insert_unique_ordered
    (order : WeakOrder less) (value : α) (container : List α)
    (ordered : container.Pairwise fun first second => less first second = true) :
    (insertUnique less value container).Pairwise fun first second => less first second = true := by
  induction container with
  | nil => exact List.pairwise_singleton _ _
  | cons first rest induction =>
      obtain ⟨before, tail⟩ := List.pairwise_cons.mp ordered
      rw [insertUnique]
      split
      case isTrue smaller =>
        refine List.pairwise_cons.mpr ⟨?_, induction tail⟩
        intro other member
        rcases insert_unique_members value rest other member with rfl | later
        · exact smaller
        · exact before other later
      case isFalse =>
        split
        case isTrue greater =>
          refine List.pairwise_cons.mpr ⟨?_, ordered⟩
          intro other member
          rcases List.mem_cons.mp member with rfl | later
          · exact greater
          · exact order.less_trans greater (before other later)
        case isFalse => exact ordered

theorem insert_unique_inserts
    (order : WeakOrder less) :
    Inserts (insertUnique less) (List.Pairwise fun first second => less first second = true) where
  empty := .nil
  grows := insert_unique_grows
  members := insert_unique_members
  ordered := insert_unique_ordered order

theorem insert_equivalent_members (value : α) (container : List α) (other : α)
    (member : other ∈ insertEquivalent less value container) : other = value ∨ other ∈ container := by
  induction container with
  | nil => exact .inl (List.mem_singleton.mp member)
  | cons first rest induction =>
      rw [insertEquivalent] at member
      split at member
      · exact List.mem_cons.mp member
      · rcases List.mem_cons.mp member with rfl | later
        · exact .inr List.mem_cons_self
        · exact (induction later).imp_right (List.mem_cons_of_mem _)

/-- The place is the upper bound of the value, wherever the search for it begins. -/
theorem insert_equivalent_splits (order : WeakOrder less) (value : α) (container : List α)
    (ordered : container.Pairwise fun first second => less second first = false) :
    ∃ before after, container = before ++ after ∧
      insertEquivalent less value container = before ++ value :: after ∧
      (∀ other ∈ before, less value other = false) ∧ ∀ other ∈ after, less value other = true := by
  induction container with
  | nil => exact ⟨[], [], rfl, rfl, fun _ => nofun, fun _ => nofun⟩
  | cons first rest induction =>
      obtain ⟨front, tail⟩ := List.pairwise_cons.mp ordered
      rw [insertEquivalent]
      split
      case isTrue smaller =>
        refine ⟨[], first :: rest, rfl, rfl, fun _ => nofun, ?_⟩
        intro other member
        rcases List.mem_cons.mp member with rfl | later
        · exact smaller
        · by_contra greater
          exact Bool.false_ne_true ((order.trans value other first (Bool.eq_false_iff.mpr greater)
            (front other later)).symm.trans smaller)
      case isFalse greater =>
        obtain ⟨before, after, split, inserted, few, many⟩ := induction tail
        refine ⟨first :: before, after, by rw [split, List.cons_append],
          by rw [inserted, List.cons_append], ?_,
          many⟩
        intro other member
        rcases List.mem_cons.mp member with rfl | later
        · exact Bool.eq_false_iff.mpr greater
        · exact few other later

theorem insert_equivalent_ordered
    (order : WeakOrder less) (value : α) (container : List α)
    (ordered : container.Pairwise fun first second => less second first = false) :
    (insertEquivalent less value container).Pairwise fun first second => less second first = false := by
  obtain ⟨before, after, split, inserted, few, many⟩ :=
    insert_equivalent_splits order value container ordered
  rw [split, List.pairwise_append] at ordered
  rw [inserted, List.pairwise_append, List.pairwise_cons]
  obtain ⟨front, back, across⟩ := ordered
  refine ⟨front, ⟨fun other member => order.asymm value other (many other member), back⟩, ?_⟩
  intro first isBefore second isBehind
  rcases List.mem_cons.mp isBehind with rfl | later
  · exact few first isBefore
  · exact across first isBefore second later

theorem insert_equivalent_grows (value : α) (container : List α) :
    (insertEquivalent less value container).length ≤ container.length + 1 := by
  induction container with
  | nil => exact Nat.le_refl _
  | cons other rest induction =>
      rw [insertEquivalent]
      split
      · exact Nat.le_refl _
      · exact Nat.succ_le_succ induction

theorem insert_equivalent_inserts (order : WeakOrder less) :
    Inserts (insertEquivalent less) (List.Pairwise fun first second => less second first = false) where
  empty := .nil
  grows := insert_equivalent_grows
  members := insert_equivalent_members
  ordered := insert_equivalent_ordered order

end Inserting

section Containers

variable {α κ ν σ : Type} [IStream σ]

structure Holding (Value : α → Prop) (Ordered : List α → Prop) (container : List α) : Prop where
  few : container.length ≤ maxContainerSize
  elements : ∀ value ∈ container, Value value
  ordered : Ordered container

theorem sequence_returns {insert : α → List α → List α} {Ordered : List α → Prop} {Value : α → Prop}
    {read : StreamM σ α} (inserts : Inserts insert Ordered) (reads : Returns Value read) :
    Returns (Holding Value Ordered) (readSequence insert read) := by
  apply returns_bind
  intro size
  apply (returns_require _ _).bind
  intro _ few
  have rounds : Returns (fun container => container.length ≤ size.toNat ∧
      (∀ value ∈ container, Value value) ∧ Ordered container)
      (repeatStep (fun container => do
        let rt ← read
        pure (insert rt container)) size.toNat []) := by
    apply returns_repeat (fun done container => container.length ≤ done ∧
      (∀ value ∈ container, Value value) ∧ Ordered container)
    · rintro done container ⟨count, elements, ordered⟩
      apply reads.returning
      intro rt received
      refine ⟨(inserts.grows rt container).trans (Nat.succ_le_succ count), ?_, inserts.ordered rt _ ordered⟩
      intro value member
      rcases inserts.members rt container value member with rfl | earlier
      · exact received
      · exact elements value earlier
    · exact ⟨Nat.le_refl 0, fun _ none => absurd none List.not_mem_nil, inserts.empty⟩
  constructor
  intro before container after runs
  obtain ⟨count, elements, ordered⟩ := rounds.of_runs before container after runs
  exact ⟨count.trans (of_decide_eq_true few), elements, ordered⟩

theorem map_returns {insert : κ × ν → List (κ × ν) → List (κ × ν)} {Ordered : List (κ × ν) → Prop}
    {Key : κ → Prop} {Value : ν → Prop} {readKey : κ → StreamM σ κ} {readValue : ν → StreamM σ ν}
    (inserts : Inserts insert Ordered) (readsKey : ∀ old, Key old → Returns Key (readKey old))
    (readsValue : ∀ old, Value old → Returns Value (readValue old)) {key : κ} {value : ν}
    (firstKey : Key key) (firstValue : Value value) :
    Returns (Holding (fun entry => Key entry.1 ∧ Value entry.2) Ordered)
      (readMap insert readKey readValue key value) := by
  apply returns_bind
  intro size
  apply (returns_require _ _).bind
  intro _ few
  apply Returns.returning
  · apply returns_repeat (fun done (state : κ × ν × List (κ × ν)) => Key state.1 ∧ Value state.2.1 ∧
      state.2.2.length ≤ done ∧ (∀ entry ∈ state.2.2, Key entry.1 ∧ Value entry.2) ∧ Ordered state.2.2)
    · rintro done ⟨key, value, container⟩ ⟨isKey, isValue, count, elements, ordered⟩
      apply (readsKey key isKey).bind
      intro nextKey nextIsKey
      apply (readsValue value isValue).returning
      intro nextValue nextIsValue
      refine ⟨nextIsKey, nextIsValue, (inserts.grows _ container).trans (Nat.succ_le_succ count), ?_,
        inserts.ordered _ _ ordered⟩
      intro entry member
      rcases inserts.members _ container entry member with rfl | earlier
      · exact ⟨nextIsKey, nextIsValue⟩
      · exact elements entry earlier
    · exact ⟨firstKey, firstValue, Nat.le_refl 0, fun _ none => absurd none List.not_mem_nil, inserts.empty⟩
  · rintro ⟨lastKey, lastValue, container⟩ ⟨_, _, count, elements, ordered⟩
    exact ⟨count.trans (of_decide_eq_true few), elements, ordered⟩

omit [IStream σ] in
theorem array_returns {Value : α → Prop} {read : α → StreamM σ α}
    (reads : ∀ old, Value old → Returns Value (read old)) (size : Nat) {values : Fin size → α}
    (each : ∀ index, Value (values index)) :
    Returns (fun values => ∀ index, Value (values index)) (readArray read size values) := by
  induction size with
  | zero => exact returns_pure each
  | succ size induction =>
      apply (reads _ (each 0)).bind
      intro first received
      apply (induction fun index => each index.succ).returning
      intro others receivedOthers index
      cases index using Fin.cases with
      | zero => exact received
      | succ index => exact receivedOthers index

end Containers

/-- Both strings, whichever of them the type selects. -/
def Param.Limited (param : Param) : Prop :=
  param.stringValue.length ≤ ushrtMax ∧ param.wstringValue.length ≤ ushrtMax

structure ModifyRequest.Limited (request : ModifyRequest) : Prop where
  command : request.command.length ≤ commandMaxLength
  params : Holding Param.Limited (fun _ => True) request.params

namespace RpcType

/-- The elements of sets and the keys of maps are in a strict weak order. -/
def OrdersKeys (less : Less) : RpcType → Prop
  | number _ _ => True
  | string _ _ => True
  | vector element => OrdersKeys less element
  | list element => OrdersKeys less element
  | set element => WeakOrder (less element) ∧ OrdersKeys less element
  | multiSet element => WeakOrder (less element) ∧ OrdersKeys less element
  | map key value => WeakOrder (less key) ∧ OrdersKeys less key ∧ OrdersKeys less value
  | multiMap key value => WeakOrder (less key) ∧ OrdersKeys less key ∧ OrdersKeys less value
  | array _ element => OrdersKeys less element
  | param => True
  | modifyRequest => True

/-- What any bytes can be read as. -/
def Limited (less : Less) : (type : RpcType) → type.Value → Prop
  | number _ _, _ => True
  | string maxLength _, value => List.length value ≤ maxLength
  | vector element, values => Holding (Limited less element) (fun _ => True) values
  | list element, values => Holding (Limited less element) (fun _ => True) values
  | set element, values => Holding (Limited less element)
      (List.Pairwise fun first second => less element first second = true) values
  | multiSet element, values => Holding (Limited less element)
      (List.Pairwise fun first second => less element second first = false) values
  | map key value, entries =>
      Holding (fun entry : key.Value × value.Value => Limited less key entry.1 ∧ Limited less value entry.2)
        (List.Pairwise fun first second => byKey (less key) first second = true) entries
  | multiMap key value, entries =>
      Holding (fun entry : key.Value × value.Value => Limited less key entry.1 ∧ Limited less value entry.2)
        (List.Pairwise fun first second => byKey (less key) second first = false) entries
  | array _ element, values => ∀ index, Limited less element (values index)
  | param, value => Param.Limited value
  | modifyRequest, request => ModifyRequest.Limited request

end RpcType

section Reading

variable {σ : Type} [IStream σ] [LimitsStrings σ]

theorem Param.read_limited {old : Param} (limited : old.Limited) :
    Returns Param.Limited (old.read : StreamM σ Param) := by
  apply returns_bind
  intro byte
  dsimp only
  split
  · exact returns_bind fun _ => returns_pure limited
  · exact returns_bind fun _ => returns_pure limited
  · exact returns_bind fun _ => returns_pure limited
  · exact returns_bind fun _ => returns_pure limited
  · exact (LimitsStrings.readString _ _).returning fun _ short => ⟨short, limited.2⟩
  · exact (LimitsStrings.readWString _ _).returning fun _ short => ⟨limited.1, short⟩
  · exact returns_pure limited
  · exact returns_pure limited

theorem ModifyRequest.read_limited (old : ModifyRequest) :
    Returns ModifyRequest.Limited (old.read : StreamM σ ModifyRequest) := by
  apply returns_bind
  intro priority
  apply returns_bind
  intro type
  apply (LimitsStrings.readString _ _).bind
  intro command short
  apply (sequence_returns push_back_inserts
    (Param.read_limited ⟨Nat.zero_le _, Nat.zero_le _⟩)).returning
  intro params holding
  exact ⟨short, holding⟩

namespace RpcType

variable {less : Less}

theorem initial_limited (type : RpcType) : type.Limited less type.initial := by
  have nothing : ∀ {α : Type} {Value : α → Prop} {Ordered : List α → Prop}, Ordered [] →
      Holding Value Ordered [] :=
    fun ordered => ⟨Nat.zero_le _, fun _ none => absurd none List.not_mem_nil, ordered⟩
  induction type with
  | number type bits => trivial
  | string maxLength sizeBits => exact Nat.zero_le _
  | vector element => exact nothing trivial
  | list element => exact nothing trivial
  | set element => exact nothing .nil
  | multiSet element => exact nothing .nil
  | map key value => exact nothing .nil
  | multiMap key value => exact nothing .nil
  | array size element induction => exact fun _ => induction
  | param => exact ⟨Nat.zero_le _, Nat.zero_le _⟩
  | modifyRequest => exact ⟨Nat.zero_le _, nothing trivial⟩

theorem read_limited (type : RpcType) (orders : type.OrdersKeys less) {old : type.Value}
    (limited : type.Limited less old) :
    Returns (type.Limited less) (type.read less old : StreamM σ type.Value) := by
  induction type with
  | number type bits => exact ⟨fun _ _ _ _ => trivial⟩
  | string maxLength sizeBits => exact LimitsStrings.readString maxLength sizeBits
  | vector element induction =>
      exact sequence_returns push_back_inserts (induction orders element.initial_limited)
  | list element induction =>
      exact sequence_returns push_back_inserts (induction orders element.initial_limited)
  | set element induction =>
      exact sequence_returns (insert_unique_inserts orders.1) (induction orders.2 element.initial_limited)
  | multiSet element induction =>
      exact sequence_returns (insert_equivalent_inserts orders.1)
        (induction orders.2 element.initial_limited)
  | map key value keyInduction valueInduction =>
      exact map_returns (insert_unique_inserts (orders.1.on Prod.fst)) (fun _ => keyInduction orders.2.1)
        (fun _ => valueInduction orders.2.2) key.initial_limited value.initial_limited
  | multiMap key value keyInduction valueInduction =>
      exact map_returns (insert_equivalent_inserts (orders.1.on Prod.fst)) (fun _ => keyInduction orders.2.1)
        (fun _ => valueInduction orders.2.2) key.initial_limited value.initial_limited
  | array size element induction => exact array_returns (fun _ => induction orders) size limited
  | param => exact Param.read_limited limited
  | modifyRequest => exact ModifyRequest.read_limited old

theorem Limited.valid (type : RpcType) (plain : type.Plain) {value : type.Value}
    (limited : type.Limited less value) : type.Valid less value := by
  induction type with
  | number type bits => trivial
  | string maxLength sizeBits => exact limited
  | vector element induction =>
      exact ⟨limited.few, fun value member => induction plain (limited.elements value member)⟩
  | list element induction =>
      exact ⟨limited.few, fun value member => induction plain (limited.elements value member)⟩
  | set element induction =>
      exact ⟨limited.few, fun value member => induction plain (limited.elements value member),
        limited.ordered⟩
  | multiSet element induction =>
      exact ⟨limited.few, fun value member => induction plain (limited.elements value member),
        limited.ordered⟩
  | map key value keyInduction valueInduction =>
      exact ⟨limited.few, fun entry member => ⟨keyInduction plain.1 (limited.elements entry member).1,
        valueInduction plain.2 (limited.elements entry member).2⟩, limited.ordered⟩
  | multiMap key value keyInduction valueInduction =>
      exact ⟨limited.few, fun entry member => ⟨keyInduction plain.1 (limited.elements entry member).1,
        valueInduction plain.2 (limited.elements entry member).2⟩, limited.ordered⟩
  | array size element induction => exact fun index => induction plain (limited index)
  | param => exact plain.elim
  | modifyRequest => exact plain.elim

end RpcType

namespace Arguments

variable {less : RpcType.Less}

def Limited (less : RpcType.Less) : (types : List RpcType) → Arguments types → Prop
  | [], _ => True
  | type :: rest, arguments => type.Limited less arguments.1 ∧ Limited less rest arguments.2

theorem initial_limited (types : List RpcType) : Limited less types (initial types) := by
  induction types with
  | nil => trivial
  | cons type rest induction => exact ⟨type.initial_limited, induction⟩

theorem read_limited (types : List RpcType) (orders : ∀ type ∈ types, type.OrdersKeys less)
    {old : Arguments types} (limited : Limited less types old) :
    Returns (Limited less types) (read less types old : StreamM σ (Arguments types)) := by
  induction types with
  | nil => exact returns_pure trivial
  | cons type rest induction =>
      apply (type.read_limited (orders type List.mem_cons_self) limited.1).bind
      intro first received
      have others := induction (fun other member => orders other (List.mem_cons_of_mem _ member)) limited.2
      exact others.returning fun _ receivedOthers => ⟨received, receivedOthers⟩

theorem Limited.valid {types : List RpcType} (plain : ∀ type ∈ types, type.Plain)
    (wellFormed : ∀ type ∈ types, type.WellFormed) {arguments : Arguments types}
    (limited : Limited less types arguments) : Valid less types arguments := by
  induction types with
  | nil => trivial
  | cons type rest induction =>
      exact ⟨wellFormed type List.mem_cons_self, limited.1.valid type (plain type List.mem_cons_self),
        induction (fun other member => plain other (List.mem_cons_of_mem _ member))
          (fun other member => wellFormed other (List.mem_cons_of_mem _ member)) limited.2⟩

end Arguments

end Reading

end Sne.Srpc
