import Mathlib.Data.List.Basic

/-!
# Labelled runs

A run of a transition system with the labels of its steps, oldest first. A fact
that speaks of the labels so far is a fact about the history of the run.
-/

namespace Sne.Library.Runs

set_option autoImplicit false

universe u v w

variable {State : Type u} {Label : Type v}

inductive Run (step : State → Label → State → Prop) : State → List Label → State → Prop where
  | start (state : State) : Run step state [] state
  | next {first middle last : State} {labels : List Label} {label : Label} :
      Run step first labels middle → step middle label last →
      Run step first (labels ++ [label]) last

/-- What holds at the start and is kept by each step holds after every run. -/
theorem Run.invariant {step : State → Label → State → Prop} {first last : State}
    {labels : List Label} (run : Run step first labels last)
    (Invariant : List Label → State → Prop) (initial : Invariant [] first)
    (kept : ∀ history state label next, Invariant history state → step state label next →
      Invariant (history ++ [label]) next) : Invariant labels last := by
  induction run with
  | start => exact initial
  | next _ taken induction => exact kept _ _ _ _ induction taken

/-- The steps that meet a condition on the state before them. -/
def Where (step : State → Label → State → Prop) (Condition : State → Label → Prop) :
    State → Label → State → Prop :=
  fun state label next => step state label next ∧ Condition state label

/-- A fact that a step neither repairs, nor breaks unless it violates the condition, holds
at the end of exactly the runs whose steps all meet the condition. -/
theorem Run.safe_iff {step : State → Label → State → Prop} {first last : State}
    {labels : List Label} (run : Run step first labels last) (Invariant Safe : State → Prop)
    (Condition : State → Label → Prop) (initial : Invariant first) (safe : Safe first)
    (kept : ∀ state label next, Invariant state → step state label next → Invariant next)
    (each : ∀ state label next, Invariant state → step state label next →
      (Safe next ↔ Safe state ∧ Condition state label)) :
    Safe last ↔ Run (Where step Condition) first labels last := by
  have invariants : ∀ {labels : List Label} {last : State},
      Run (Where step Condition) first labels last → Invariant last ∧ Safe last := by
    intro labels last taken
    induction taken with
    | start => exact ⟨initial, safe⟩
    | next _ meets induction =>
        exact ⟨kept _ _ _ induction.1 meets.1, (each _ _ _ induction.1 meets.1).mpr ⟨induction.2, meets.2⟩⟩
  have forward : Invariant last ∧ (Safe last → Run (Where step Condition) first labels last) := by
    induction run with
    | start => exact ⟨initial, fun _ => .start _⟩
    | next _ taken induction =>
        refine ⟨kept _ _ _ induction.1 taken, ?_⟩
        intro safeLast
        rcases (each _ _ _ induction.1 taken).mp safeLast with ⟨safeMiddle, condition⟩
        exact .next (induction.2 safeMiddle) ⟨taken, condition⟩
  exact ⟨forward.2, fun taken => (invariants taken).2⟩

theorem Run.cons {step : State → Label → State → Prop} {first middle last : State} {label : Label}
    {labels : List Label} (taken : step first label middle) (run : Run step middle labels last) :
    Run step first (label :: labels) last := by
  induction run with
  | start => exact .next (.start first) taken
  | next _ later induction => exact .next induction later

theorem Run.append {step : State → Label → State → Prop} {first middle last : State}
    {labels later : List Label} (run : Run step first labels middle)
    (rest : Run step middle later last) :
    Run step first (labels ++ later) last := by
  induction rest with
  | start =>
      rw [List.append_nil]
      exact run
  | next _ taken induction =>
      rw [← List.append_assoc]
      exact .next induction taken

theorem Run.unconditional {step : State → Label → State → Prop} {Condition : State → Label → Prop}
    {first last : State} {labels : List Label} (run : Run (Where step Condition) first labels last) :
    Run step first labels last := by
  induction run with
  | start => exact .start _
  | next _ taken induction => exact .next induction taken.1

/-- Every step of one system is a step of another, from the state that corresponds to its own. -/
theorem Run.corresponds {Abstract : Type u} {Action : Type v} {step : State → Label → State → Prop}
    {other : Abstract → Action → Abstract → Prop} (view : State → Abstract)
    (each : ∀ state label next, step state label next → ∃ action, other (view state) action (view next))
    {first last : State} {labels : List Label} (run : Run step first labels last) :
    ∃ actions, Run other (view first) actions (view last) := by
  induction run with
  | start => exact ⟨[], .start _⟩
  | next _ taken induction =>
      obtain ⟨actions, corresponding⟩ := induction
      obtain ⟨action, moves⟩ := each _ _ _ taken
      exact ⟨actions ++ [action], .next corresponding moves⟩

/-- Every way to go on comes to an end. -/
def Ends (step : State → Label → State → Prop) (state : State) : Prop :=
  Acc (fun next state => ∃ label, step state label next) state

/-- Each step goes down in a rank, as long as the invariant holds. -/
theorem ends_of_rank {Rank : Type w} {less : Rank → Rank → Prop} (wellFounded : WellFounded less)
    (rank : State → Rank) {step : State → Label → State → Prop} (Invariant : State → Prop)
    (each : ∀ state label next, Invariant state → step state label next →
      Invariant next ∧ less (rank next) (rank state)) {state : State} (initial : Invariant state) :
    Ends step state := by
  induction value : rank state using wellFounded.induction generalizing state with
  | _ value induction =>
      refine .intro state ?_
      rintro next ⟨label, taken⟩
      obtain ⟨kept, down⟩ := each state label next initial taken
      rw [value] at down
      exact induction (rank next) down kept rfl

theorem split_at {Entry : Type u} {entries : List Entry} {index : Nat} {entry : Entry}
    (found : entries[index]? = some entry) :
    ∃ earlier later, entries = earlier ++ entry :: later ∧ entries.eraseIdx index = earlier ++ later ∧
      earlier.length = index := by
  rcases List.getElem?_eq_some_iff.mp found with ⟨bound, same⟩
  refine ⟨entries.take index, entries.drop (index + 1), ?_, List.eraseIdx_eq_take_drop_succ _ _, ?_⟩
  · rw [← same, List.getElem_cons_drop, List.take_append_drop]
  · exact List.length_take_of_le (Nat.le_of_lt bound)

theorem set_at {Entry : Type u} {entries : List Entry} {index : Nat} {entry : Entry}
    (found : entries[index]? = some entry) :
    ∃ earlier later, entries = earlier ++ entry :: later ∧
      ∀ changed, entries.set index changed = earlier ++ changed :: later := by
  rcases split_at found with ⟨earlier, later, whole, _, place⟩
  refine ⟨earlier, later, whole, ?_⟩
  intro changed
  rw [whole, ← place, List.set_append_right _ _ (Nat.le_refl _), Nat.sub_self, List.set_cons_zero]

theorem erase_middle {Entry : Type u} (earlier : List Entry) (entry : Entry) (later : List Entry) :
    (earlier ++ entry :: later).eraseIdx earlier.length = earlier ++ later := by
  rw [List.eraseIdx_append_of_length_le (Nat.le_refl _), Nat.sub_self, List.eraseIdx_cons_zero]

section Executions

def execute (next : State → Label → Option State) : State → List Label → Option State
  | state, [] => some state
  | state, label :: labels => (next state label).bind fun state => execute next state labels

theorem Run.of_execute {step : State → Label → State → Prop} {next : State → Label → Option State}
    (sound : ∀ state label last, next state label = some last → step state label last)
    {labels : List Label} {first last : State} (executes : execute next first labels = some last) :
    Run step first labels last := by
  induction labels generalizing first with
  | nil =>
      cases executes
      exact .start _
  | cons label labels induction =>
      rcases Option.bind_eq_some_iff.mp executes with ⟨middle, taken, rest⟩
      exact .cons (sound first label middle taken) (induction rest)

theorem Run.of_observed (step : State → Label → State → Prop) {next : State → Label → Option State}
    (sound : ∀ state label last, next state label = some last → step state label last)
    {Value : Type w} {observe : State → Value} {value : Value} {labels : List Label} {first : State}
    (executes : (execute next first labels).map observe = some value) :
    ∃ last, Run step first labels last ∧ observe last = value := by
  rcases Option.map_eq_some_iff.mp executes with ⟨last, executed, observed⟩
  exact ⟨last, .of_execute sound executed, observed⟩

def guarded (next : State → Label → Option State) (Condition : State → Label → Prop)
    [∀ state label, Decidable (Condition state label)] (state : State) (label : Label) : Option State :=
  if Condition state label then next state label else none

theorem guarded_sound {step : State → Label → State → Prop} {next : State → Label → Option State}
    (sound : ∀ state label last, next state label = some last → step state label last)
    (Condition : State → Label → Prop) [∀ state label, Decidable (Condition state label)]
    (state : State) (label : Label) (last : State)
    (taken : guarded next Condition state label = some last) :
      Where step Condition state label last := by
  unfold guarded at taken
  split at taken
  · rename_i condition
    exact ⟨sound state label last taken, condition⟩
  · cases taken

theorem Run.of_guarded (step : State → Label → State → Prop) {next : State → Label → Option State}
    (Condition : State → Label → Prop) [∀ state label, Decidable (Condition state label)]
    (sound : ∀ state label last, next state label = some last → step state label last)
    {Value : Type w} {observe : State → Value} {value : Value} {labels : List Label} {first : State}
    (executes : (execute (guarded next Condition) first labels).map observe = some value) :
    ∃ last, Run (Where step Condition) first labels last ∧ observe last = value :=
  Run.of_observed (Where step Condition) (guarded_sound sound Condition) executes

end Executions

section Histories

variable {Entry : Type u}

/-- Each entry of a history fits the entries before it. -/
def Throughout (Fits : List Entry → Entry → Prop) (history : List Entry) : Prop :=
  ∀ before entry after, history = before ++ entry :: after → Fits before entry

theorem throughout_nil (Fits : List Entry → Entry → Prop) : Throughout Fits [] := by
  intro before entry after split
  simp at split

theorem throughout_concat (Fits : List Entry → Entry → Prop) (history : List Entry) (entry : Entry) :
    Throughout Fits (history ++ [entry]) ↔ Throughout Fits history ∧ Fits history entry := by
  constructor
  · intro whole
    refine ⟨?_, whole history entry [] rfl⟩
    intro before earlier after split
    apply whole before earlier (after ++ [entry])
    rw [split, List.append_assoc, List.cons_append]
  · rintro ⟨earlier, last⟩ before current after split
    rcases List.eq_nil_or_concat after with rfl | ⟨more, final, rfl⟩
    · rcases List.append_inj' split rfl with ⟨rfl, same⟩
      cases same
      exact last
    · rw [List.concat_eq_append, ← List.cons_append, ← List.append_assoc] at split
      rcases List.append_inj' split rfl with ⟨same, _⟩
      exact earlier before current more same

end Histories

end Sne.Library.Runs
