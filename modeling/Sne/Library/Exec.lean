import Mathlib.Data.List.Basic

/-!
# Programs with state and exceptions

`EStateM` keeps the state when it throws, which is what a C++ member function
does. The two relations below say that a program returned, or threw, and where
it left the state. Proofs about a program are chains of these rules, one for
each statement of the program, and never unfold the monad.
-/

namespace Sne.Library.Exec

universe u

variable {ε σ τ α β : Type u}

/-- Started in `s`, the program returns `a` and leaves the state `t`. -/
def Runs (program : EStateM ε σ α) (s : σ) (a : α) (t : σ) : Prop :=
  program s = .ok a t

/-- Started in `s`, the program throws `e` and leaves the state `t`. -/
def Throws (program : EStateM ε σ α) (s : σ) (e : ε) (t : σ) : Prop :=
  program s = .error e t

theorem runs_pure (a : α) (s : σ) : Runs (pure a : EStateM ε σ α) s a s := rfl

theorem runs_get (s : σ) : Runs (get : EStateM ε σ σ) s s s := rfl

theorem runs_set (s t : σ) : Runs (set t : EStateM ε σ PUnit) s ⟨⟩ t := rfl

theorem runs_modify (change : σ → σ) (s : σ) :
    Runs (modify change : EStateM ε σ PUnit) s ⟨⟩ (change s) := rfl

theorem Runs.bind {program : EStateM ε σ α} {next : α → EStateM ε σ β}
    {s t u : σ} {a : α} {b : β}
    (first : Runs program s a t) (second : Runs (next a) t b u) :
    Runs (program >>= next) s b u := by
  unfold Runs at *
  simp [Bind.bind, EStateM.bind, first, second]

theorem Runs.bind_eq {program : EStateM ε σ α} {s t : σ} {a : α} (first : Runs program s a t)
    (next : α → EStateM ε σ β) : (program >>= next) s = next a t := by
  unfold Runs at first
  simp [Bind.bind, EStateM.bind, first]

theorem Runs.bind_throws {program : EStateM ε σ α} {next : α → EStateM ε σ β}
    {s t u : σ} {a : α} {e : ε}
    (first : Runs program s a t) (second : Throws (next a) t e u) :
    Throws (program >>= next) s e u := by
  unfold Runs Throws at *
  simp [Bind.bind, EStateM.bind, first, second]

theorem Throws.bind {program : EStateM ε σ α} {next : α → EStateM ε σ β}
    {s t : σ} {e : ε} (first : Throws program s e t) :
    Throws (program >>= next) s e t := by
  unfold Throws at *
  simp [Bind.bind, EStateM.bind, first]

theorem Runs.map {program : EStateM ε σ α} {s t : σ} {a : α}
    (first : Runs program s a t) (change : α → β) :
    Runs (change <$> program) s (change a) t := by
  unfold Runs at *
  simp [Functor.map, EStateM.map, first]

/-- A program that returned ran its first statement, and the rest from there. -/
theorem Runs.of_bind {program : EStateM ε σ α} {next : α → EStateM ε σ β} {s u : σ} {b : β}
    (whole : Runs (program >>= next) s b u) :
    ∃ a t, Runs program s a t ∧ Runs (next a) t b u := by
  unfold Runs at *
  simp only [Bind.bind, EStateM.bind] at whole
  split at whole
  · rename_i a t first
    exact ⟨a, t, first, whole⟩
  · cases whole

theorem Runs.unique {program : EStateM ε σ α} {s t u : σ} {a b : α}
    (first : Runs program s a t) (second : Runs program s b u) : a = b ∧ t = u := by
  unfold Runs at *
  rw [first] at second
  cases second
  exact ⟨rfl, rfl⟩

theorem Runs.returning {program : EStateM ε σ α} {s t : σ} {a : α} {b : β} {change : α → β}
    (first : Runs program s a t) (value : change a = b) :
    Runs (program >>= fun result => pure (change result)) s b t := by
  rw [← value]
  exact first.bind (runs_pure _ _)

def require (condition : Bool) (e : ε) : EStateM ε σ PUnit :=
  if condition then pure ⟨⟩ else throw e

def guarded (condition : Bool) (program : EStateM ε σ PUnit) : EStateM ε σ PUnit :=
  if condition then program else pure ⟨⟩

theorem runs_require {condition : Bool} (holds : condition = true) (e : ε) (s : σ) :
    Runs (require condition e) s ⟨⟩ s := by
  simp [Runs, require, holds, pure, EStateM.pure]

theorem throws_require {condition : Bool} (fails : condition = false) (e : ε) (s : σ) :
    Throws (require condition e) s e s := by
  unfold Throws Exec.require
  rw [fails, if_neg Bool.false_ne_true]
  rfl

theorem Runs.guarded {condition : Bool} {program : EStateM ε σ PUnit} {s t : σ}
    (holds : condition = true) (inner : Runs program s ⟨⟩ t) :
    Runs (Exec.guarded condition program) s ⟨⟩ t := by
  simpa [Exec.guarded, holds] using inner

theorem runs_guarded_skip {condition : Bool} (fails : condition = false)
    (program : EStateM ε σ PUnit) (s : σ) : Runs (guarded condition program) s ⟨⟩ s := by
  simp [Runs, guarded, fails, pure, EStateM.pure]

def focus (view : σ → τ) (update : σ → τ → σ) (program : EStateM ε τ α) : EStateM ε σ α :=
  fun s => match program (view s) with
    | .ok a t => .ok a (update s t)
    | .error e t => .error e (update s t)

theorem Runs.focus {program : EStateM ε τ α} {view : σ → τ} {update : σ → τ → σ}
    {s : σ} {t : τ} {a : α} (inner : Runs program (view s) a t) :
    Runs (Exec.focus view update program) s a (update s t) := by
  unfold Runs at *
  simp [Exec.focus, inner]

theorem Throws.focus {program : EStateM ε τ α} {view : σ → τ} {update : σ → τ → σ}
    {s : σ} {t : τ} {e : ε} (inner : Throws program (view s) e t) :
    Throws (Exec.focus (α := α) view update program) s e (update s t) := by
  unfold Throws at *
  simp [Exec.focus, inner]

/-- The program leaves `Keep` true when it returns. -/
def Keeps (Keep : σ → Prop) (program : EStateM ε σ α) : Prop :=
  ∀ s a t, Keep s → Runs program s a t → Keep t

variable {Keep : σ → Prop}

theorem keeps_pure (a : α) : Keeps Keep (pure a : EStateM ε σ α) := by
  intro s b t kept runs
  rcases runs.unique (runs_pure a s) with ⟨_, rfl⟩
  exact kept

theorem Keeps.bind {program : EStateM ε σ α} {next : α → EStateM ε σ β}
    (first : Keeps Keep program) (second : ∀ a, Keeps Keep (next a)) :
    Keeps Keep (program >>= next) := by
  intro s b u kept runs
  rcases runs.of_bind with ⟨a, t, firstRuns, secondRuns⟩
  exact second a t b u (first s a t kept firstRuns) secondRuns

theorem Keeps.map {program : EStateM ε σ α} (first : Keeps Keep program) (change : α → β) :
    Keeps Keep (change <$> program) := by
  intro s b t kept runs
  unfold Runs at runs
  simp only [Functor.map, EStateM.map] at runs
  split at runs
  · rename_i a middle firstRuns
    cases runs
    exact first s a t kept firstRuns
  · cases runs

theorem keeps_focus {view : σ → τ} {update : σ → τ → σ} (kept : ∀ s t, Keep s → Keep (update s t))
    (program : EStateM ε τ α) : Keeps Keep (Exec.focus view update program) := by
  intro s a t held runs
  unfold Runs Exec.focus at runs
  split at runs
  · cases runs
    exact kept s _ held
  · cases runs

structure Returns (Value : α → Prop) (program : EStateM ε σ α) : Prop where
  of_runs : ∀ s a t, Runs program s a t → Value a

section Returns

variable {Value : α → Prop} {Other : β → Prop}

theorem returns_pure {a : α} (value : Value a) : Returns Value (pure a : EStateM ε σ α) := by
  constructor
  intro s b t runs
  rw [(runs.unique (runs_pure a s)).1]
  exact value

theorem Returns.bind {program : EStateM ε σ α} {next : α → EStateM ε σ β} (first : Returns Value program)
    (second : ∀ a, Value a → Returns Other (next a)) : Returns Other (program >>= next) := by
  constructor
  intro s b u runs
  obtain ⟨a, t, firstRuns, secondRuns⟩ := runs.of_bind
  exact (second a (first.of_runs s a t firstRuns)).of_runs t b u secondRuns

theorem returns_bind {program : EStateM ε σ α} {next : α → EStateM ε σ β}
    (second : ∀ a, Returns Other (next a)) : Returns Other (program >>= next) :=
  have anything : Returns (fun _ => True) program := ⟨fun _ _ _ _ => trivial⟩
  anything.bind fun a _ => second a

theorem Returns.returning {program : EStateM ε σ α} {change : α → β} (first : Returns Value program)
    (changed : ∀ a, Value a → Other (change a)) :
    Returns Other (program >>= fun result => pure (change result)) :=
  first.bind fun a value => returns_pure (changed a value)

theorem returns_require (condition : Bool) (e : ε) :
    Returns (fun _ => condition = true) (require condition e : EStateM ε σ PUnit) := by
  constructor
  intro s a t runs
  by_contra fails
  have throws := throws_require (Bool.eq_false_iff.mpr fails) e s
  unfold Runs at runs
  unfold Throws at throws
  rw [runs] at throws
  cases throws

end Returns

end Sne.Library.Exec
