import Sne.Library.Exec
import Mathlib.Data.List.Forall2

/-!
# Sequences of typed values

A `serialize` method writes values of several types one after the other, and its
reader asks for the same types in the same order. What a value is written as may
depend on how much was written before it (an aligned value does), and the
reader's stream is known at each place only through what it has still to read.
-/

namespace Sne.Library.Sequence

open Sne.Library.Exec

set_option autoImplicit false

variable {ε σ τ ι : Type} {Value : τ → Type}

abbrev Typed (Value : τ → Type) := (type : τ) × Value type

def writeAll (write : (type : τ) → Value type → EStateM ε σ Unit) :
    List (Typed Value) → EStateM ε σ Unit
  | [] => pure ()
  | item :: rest => do
      write item.1 item.2
      writeAll write rest

def readAll (read : (type : τ) → EStateM ε σ (Value type)) :
    List τ → EStateM ε σ (List (Typed Value))
  | [] => pure []
  | type :: rest => do
      let value ← read type
      let values ← readAll read rest
      pure (⟨type, value⟩ :: values)

/-- What the items are written as when `offset` symbols stand before them. -/
def encodeAll (encode : Nat → Typed Value → List ι) : Nat → List (Typed Value) → List ι
  | _, [] => []
  | offset, item :: rest =>
      encode offset item ++ encodeAll encode (offset + (encode offset item).length) rest

theorem encode_all_uniform (encode : Typed Value → List ι) (offset : Nat)
    (items : List (Typed Value)) :
    encodeAll (fun _ => encode) offset items = items.flatMap encode := by
  induction items generalizing offset with
  | nil => rfl
  | cons item rest induction => rw [encodeAll, induction, List.flatMap_cons]

theorem write_all_appends {write : (type : τ) → Value type → EStateM ε σ Unit}
    (encode : Nat → Typed Value → List ι) (Holds : σ → List ι → Prop) (items : List (Typed Value))
    (each : ∀ item ∈ items, ∀ s written, Holds s written →
      ∃ t, Runs (write item.1 item.2) s () t ∧
        Holds t (written ++ encode written.length item))
    (s : σ) (written : List ι) (holds : Holds s written) :
    ∃ t, Runs (writeAll write items) s () t ∧
      Holds t (written ++ encodeAll encode written.length items) := by
  induction items generalizing s written with
  | nil => exact ⟨s, runs_pure _ _, by simpa [encodeAll] using holds⟩
  | cons item rest induction =>
      rcases each item List.mem_cons_self s written holds with ⟨middle, first, middleHolds⟩
      rcases induction (fun other member => each other (List.mem_cons_of_mem _ member))
        middle _ middleHolds with ⟨t, others, afterHolds⟩
      rw [List.length_append, List.append_assoc] at afterHolds
      exact ⟨t, first.bind others, afterHolds⟩

theorem read_all_takes {read : (type : τ) → EStateM ε σ (Value type)}
    (encode : Nat → Typed Value → List ι) (Remains : Nat → List ι → σ → Prop)
    (Reads : Typed Value → Typed Value → Prop) (items : List (Typed Value))
    (each : ∀ item ∈ items, ∀ offset rest s, Remains offset (encode offset item ++ rest) s →
      ∃ value t, Runs (read item.1) s value t ∧
        Remains (offset + (encode offset item).length) rest t ∧ Reads item ⟨item.1, value⟩)
    (offset : Nat) (rest : List ι) (s : σ)
    (remains : Remains offset (encodeAll encode offset items ++ rest) s) :
    ∃ values t, Runs (readAll read (items.map Sigma.fst)) s values t ∧
      Remains (offset + (encodeAll encode offset items).length) rest t ∧
      List.Forall₂ Reads items values := by
  induction items generalizing offset s with
  | nil => exact ⟨[], s, runs_pure _ _, by simpa [encodeAll] using remains, .nil⟩
  | cons item others induction =>
      rw [encodeAll, List.append_assoc] at remains
      rcases each item List.mem_cons_self offset _ s remains with
        ⟨value, middle, first, middleRemains, reads⟩
      rcases induction (fun other member => each other (List.mem_cons_of_mem _ member))
        _ middle middleRemains with ⟨values, t, following, afterRemains, allRead⟩
      rw [Nat.add_assoc, ← List.length_append] at afterRemains
      exact ⟨_, t, first.bind (following.bind (runs_pure _ _)), afterRemains, .cons reads allRead⟩

/-- A reader that returned the items read the first of them, and the rest from there. -/
theorem read_all_cons {read : (type : τ) → EStateM ε σ (Value type)} {type : τ} {types : List τ}
    {value : Value type} {values : List (Typed Value)} {s t : σ}
    (runs : Runs (readAll read (type :: types)) s (⟨type, value⟩ :: values) t) :
    ∃ middle, Runs (read type) s value middle ∧ Runs (readAll read types) middle values t := by
  rcases runs.of_bind with ⟨first, middle, firstRuns, following⟩
  rcases following.of_bind with ⟨others, last, otherRuns, returned⟩
  rcases returned.unique (runs_pure _ _) with ⟨same, rfl⟩
  cases same
  exact ⟨middle, firstRuns, otherRuns⟩

/-- All items come back as they were sent when each of them does. -/
theorem all_read_iff {Sound : Typed Value → Prop} {items values : List (Typed Value)}
    (each : List.Forall₂ (fun item value => value = item ↔ Sound item) items values) :
    values = items ↔ ∀ item ∈ items, Sound item := by
  induction each with
  | nil => simp
  | cons first _ induction => rw [List.cons.injEq, first, induction, List.forall_mem_cons]

end Sne.Library.Sequence
