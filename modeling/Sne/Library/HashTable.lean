import Mathlib.Data.List.Nodup
import Mathlib.Data.List.Perm.Basic

/-!
# Hash tables with stored codes

The nodes of a hash table with unique keys, each with the code its key had when it was put
in. A key is looked for by its code and then by equality; the buckets narrow the search
down to nodes whose code can be equal, and are left out. The order of the nodes has no
meaning. Nothing says that equal keys have equal codes.
-/

namespace Sne.Library.HashTable

set_option autoImplicit false

universe u v w

structure Node (Key : Type u) (Value : Type v) (Code : Type w) where
  key : Key
  value : Value
  code : Code
deriving DecidableEq, Repr

variable {Key : Type u} {Value : Type v} {Code : Type w}

def keys (table : List (Node Key Value Code)) : List Key := table.map Node.key

def entry (node : Node Key Value Code) : Key × Value := (node.key, node.value)

theorem mem_keys {key : Key} {table : List (Node Key Value Code)} :
    key ∈ keys table ↔ ∃ node ∈ table, node.key = key := List.mem_map

theorem mem_keys_cons {key : Key} {node : Node Key Value Code} {table : List (Node Key Value Code)} :
    key ∈ keys (node :: table) ↔ key = node.key ∨ key ∈ keys table := List.mem_cons

theorem keys_of_entries (table : List (Node Key Value Code)) :
    keys table = (table.map entry).map Prod.fst := by
  rw [List.map_map]
  rfl

def Distinct (table : List (Node Key Value Code)) : Prop := (keys table).Nodup

theorem distinct_nil : Distinct ([] : List (Node Key Value Code)) := List.nodup_nil

/-- An equal key has the code. -/
def Agrees (key : Key) (code : Code) (table : List (Node Key Value Code)) : Prop :=
  ∀ node ∈ table, node.key = key → node.code = code

section Lookup

variable [DecidableEq Key] [DecidableEq Code]

def contains (key : Key) (code : Code) (table : List (Node Key Value Code)) : Bool :=
  table.any fun node => decide (node.code = code ∧ node.key = key)

/-- A key that is found stays with its value. -/
def insert (key : Key) (value : Value) (code : Code) (table : List (Node Key Value Code)) :
    List (Node Key Value Code) :=
  if contains key code table then table else { key, value, code } :: table

variable {key : Key} {value : Value} {code : Code} {table : List (Node Key Value Code)}

theorem contains_iff : contains key code table = true ↔
    ∃ node ∈ table, node.code = code ∧ node.key = key := by
  unfold contains
  rw [List.any_eq_true]
  simp only [decide_eq_true_eq]

theorem mem_keys_of_contains (found : contains key code table = true) : key ∈ keys table := by
  rcases contains_iff.mp found with ⟨node, member, _, same⟩
  exact mem_keys.mpr ⟨node, member, same⟩

theorem Agrees.contains_iff (agrees : Agrees key code table) :
    contains key code table = true ↔ key ∈ keys table := by
  constructor
  · exact mem_keys_of_contains
  · intro member
    rcases mem_keys.mp member with ⟨node, contained, same⟩
    exact HashTable.contains_iff.mpr ⟨node, contained, agrees node contained same, same⟩

/-- Among distinct keys a lookup is right for no other code. -/
theorem contains_right_iff (distinct : Distinct table) :
    (contains key code table = true ↔ key ∈ keys table) ↔ Agrees key code table := by
  constructor
  · intro right node member same
    rcases contains_iff.mp (right.mpr (mem_keys.mpr ⟨node, member, same⟩)) with
      ⟨found, contained, sameCode, sameKey⟩
    have one : node = found :=
      List.inj_on_of_nodup_map distinct member contained (same.trans sameKey.symm)
    rw [one, sameCode]
  · intro agrees
    exact agrees.contains_iff

theorem insert_new (fresh : key ∉ keys table) :
    insert key value code table = { key, value, code } :: table := by
  unfold insert
  rw [if_neg]
  intro found
  exact fresh (mem_keys_of_contains found)

theorem mem_keys_insert (wanted : Key) :
    wanted ∈ keys (insert key value code table) ↔ wanted = key ∨ wanted ∈ keys table := by
  unfold insert
  split
  · rename_i found
    constructor
    · exact .inr
    · intro either
      rcases either with same | member
      · rw [same]
        exact mem_keys_of_contains found
      · exact member
  · exact List.mem_cons

/-- Distinct keys stay distinct exactly when an equal key has the code. -/
theorem distinct_insert_iff : Distinct (insert key value code table) ↔
    Distinct table ∧ Agrees key code table := by
  unfold insert
  split
  · rename_i found
    constructor
    · intro distinct
      refine ⟨distinct, (contains_right_iff distinct).mp ?_⟩
      exact iff_of_true found (mem_keys_of_contains found)
    · exact And.left
  · rename_i missing
    unfold Distinct
    rw [keys, List.map_cons, List.nodup_cons]
    constructor
    · rintro ⟨fresh, distinct⟩
      refine ⟨distinct, ?_⟩
      intro node member same
      exact absurd (mem_keys.mpr ⟨node, member, same⟩) fresh
    · rintro ⟨distinct, agrees⟩
      refine ⟨?_, distinct⟩
      intro member
      exact missing (agrees.contains_iff.mpr member)

theorem mem_insert {node : Node Key Value Code} (member : node ∈ insert key value code table) :
    node = { key, value, code } ∨ node ∈ table := by
  unfold insert at member
  split at member
  · exact .inr member
  · exact List.mem_cons.mp member

theorem mem_insert_of_mem {node : Node Key Value Code} (member : node ∈ table) :
    node ∈ insert key value code table := by
  unfold insert
  split
  · exact member
  · exact List.mem_cons_of_mem _ member

theorem insert_holds : ∃ node ∈ insert key value code table, node.key = key ∧ node.code = code := by
  unfold insert
  split
  · rename_i found
    obtain ⟨node, member, sameCode, sameKey⟩ := contains_iff.mp found
    exact ⟨node, member, sameKey, sameCode⟩
  · exact ⟨_, List.mem_cons_self, rfl, rfl⟩

end Lookup

section Order

variable {table other : List (Node Key Value Code)}

theorem mem_keys_perm (same : table.Perm other) (key : Key) : key ∈ keys table ↔ key ∈ keys other :=
  (same.map Node.key).mem_iff

theorem distinct_perm (same : table.Perm other) : Distinct table ↔ Distinct other :=
  (same.map Node.key).nodup_iff

end Order

section Loading

variable [DecidableEq Key] [DecidableEq Code]

def load (table : List (Node Key Value Code)) : List (Node Key Value Code) → List (Node Key Value Code)
  | [] => table
  | node :: rest => load (insert node.key node.value node.code table) rest

theorem mem_keys_load {table nodes : List (Node Key Value Code)} (wanted : Key) :
    wanted ∈ keys (load table nodes) ↔ wanted ∈ keys table ∨ wanted ∈ keys nodes := by
  induction nodes generalizing table with
  | nil => exact (or_iff_left List.not_mem_nil).symm
  | cons node rest induction =>
      rw [load, induction, mem_keys_insert, mem_keys_cons]
      exact (or_congr_left or_comm).trans or_assoc

theorem mem_load {table nodes : List (Node Key Value Code)} {node : Node Key Value Code}
    (member : node ∈ load table nodes) : node ∈ table ∨ node ∈ nodes := by
  induction nodes generalizing table with
  | nil => exact .inl member
  | cons first rest induction =>
      rcases induction member with inserted | later
      · rcases mem_insert inserted with same | old
        · exact .inr (same ▸ List.mem_cons_self)
        · exact .inl old
      · exact .inr (List.mem_cons_of_mem _ later)

/-- Nodes whose equal keys have one code leave the keys distinct. -/
theorem distinct_load {table nodes : List (Node Key Value Code)} (distinct : Distinct table)
    (agree : ∀ left ∈ table ++ nodes, ∀ right ∈ table ++ nodes, left.key = right.key →
      left.code = right.code) : Distinct (load table nodes) := by
  induction nodes generalizing table with
  | nil => exact distinct
  | cons node rest induction =>
      have whole : ∀ {other}, other ∈ insert node.key node.value node.code table ++ rest →
          other ∈ table ++ node :: rest := by
        intro other member
        rw [List.mem_append, List.mem_cons]
        rcases List.mem_append.mp member with inserted | later
        · rcases mem_insert inserted with same | old
          · exact .inr (.inl same)
          · exact .inl old
        · exact .inr (.inr later)
      apply induction
      · apply distinct_insert_iff.mpr
        refine ⟨distinct, ?_⟩
        intro other member same
        exact agree other (List.mem_append_left _ member) node
          (List.mem_append_right _ List.mem_cons_self) same
      · intro left leftMember right rightMember same
        exact agree left (whole leftMember) right (whole rightMember) same

theorem load_holds {table nodes : List (Node Key Value Code)} {node : Node Key Value Code}
    (member : node ∈ table ++ nodes) :
    ∃ other ∈ load table nodes, other.key = node.key ∧ other.code = node.code := by
  induction nodes generalizing table node with
  | nil =>
      rw [List.append_nil] at member
      exact ⟨node, member, rfl, rfl⟩
  | cons first rest induction =>
      rcases List.mem_append.mp member with old | new
      · exact induction (List.mem_append_left _ (mem_insert_of_mem old))
      · rcases List.mem_cons.mp new with same | later
        · obtain ⟨inserted, insertedMember, sameKey, sameCode⟩ :=
            @insert_holds _ _ _ _ _ first.key first.value first.code table
          obtain ⟨other, otherMember, otherKey, otherCode⟩ :=
            induction (List.mem_append_left rest insertedMember)
          rw [same]
          exact ⟨other, otherMember, otherKey.trans sameKey, otherCode.trans sameCode⟩
        · exact induction (List.mem_append_right _ later)

/-- The keys are distinct only if equal keys have one code. -/
theorem codes_of_distinct_load {table nodes : List (Node Key Value Code)}
    (distinct : Distinct (load table nodes))
    {left right : Node Key Value Code} (leftMember : left ∈ table ++ nodes)
    (rightMember : right ∈ table ++ nodes) (same : left.key = right.key) : left.code = right.code := by
  obtain ⟨first, firstMember, firstKey, firstCode⟩ := load_holds leftMember
  obtain ⟨second, secondMember, secondKey, secondCode⟩ := load_holds rightMember
  have one : first = second := List.inj_on_of_nodup_map distinct firstMember secondMember
    (firstKey.trans (same.trans secondKey.symm))
  rw [← firstCode, ← secondCode, one]

/-- Nodes with distinct keys are all put in, whatever their codes. -/
theorem load_distinct {table nodes : List (Node Key Value Code)} (distinct : Distinct nodes)
    (fresh : ∀ key ∈ keys nodes, key ∉ keys table) : (load table nodes).Perm (nodes ++ table) := by
  induction nodes generalizing table with
  | nil => exact List.Perm.refl _
  | cons node rest induction =>
      rcases List.nodup_cons.mp distinct with ⟨first, others⟩
      rw [load, insert_new (fresh node.key List.mem_cons_self)]
      apply (induction others _).trans List.perm_middle
      intro key member found
      rcases List.mem_cons.mp found with same | old
      · exact first (same ▸ member)
      · exact fresh key (List.mem_cons_of_mem _ member) old

end Loading

end Sne.Library.HashTable
