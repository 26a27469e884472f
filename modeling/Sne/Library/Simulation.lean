import Sne.Library.Exec

/-!
# Programs that run side by side

From related states, two programs that simulate each other return the same value, or
throw the same exception, and leave related states, whichever happens. The relation
before may differ from the one after. `Establishes` is the same for one program alone.
-/

namespace Sne.Library.Simulation

open Sne.Library.Exec

set_option autoImplicit false

universe u

variable {ε σ τ α β : Type u} {R S T : σ → τ → Prop}

/-- The state that a program leaves, whether it returned or threw. -/
def finalState : EStateM.Result ε σ α → σ
  | .ok _ s => s
  | .error _ s => s

def threw : EStateM.Result ε σ α → Bool
  | .ok _ _ => false
  | .error _ _ => true

def Related (R : σ → τ → Prop) : EStateM.Result ε σ α → EStateM.Result ε τ α → Prop
  | .ok a s, .ok b t => a = b ∧ R s t
  | .error e s, .error f t => e = f ∧ R s t
  | .ok _ _, .error _ _ => False
  | .error _ _, .ok _ _ => False

def Simulates (R S : σ → τ → Prop) (program : EStateM ε σ α) (other : EStateM ε τ α) : Prop :=
  ∀ s t, R s t → Related S (program s) (other t)

theorem related_runs {program : EStateM ε σ α} {other : EStateM ε τ α} {s s' : σ} {t t' : τ} {a : α}
    (runs : Runs program s a s') (otherRuns : Runs other t a t') (related : R s' t') :
    Related R (program s) (other t) := by
  unfold Runs at runs otherRuns
  rw [runs, otherRuns]
  exact ⟨rfl, related⟩

theorem related_throws {program : EStateM ε σ α} {other : EStateM ε τ α} {s s' : σ} {t t' : τ} {e : ε}
    (throws : Throws program s e s') (otherThrows : Throws other t e t') (related : R s' t') :
    Related R (program s) (other t) := by
  unfold Throws at throws otherThrows
  rw [throws, otherThrows]
  exact ⟨rfl, related⟩

theorem related_cases {left : EStateM.Result ε σ α} {right : EStateM.Result ε τ α}
    (related : Related R left right) :
    (∃ a s t, left = .ok a s ∧ right = .ok a t ∧ R s t) ∨
      ∃ e s t, left = .error e s ∧ right = .error e t ∧ R s t := by
  cases left with
  | ok a s =>
      cases right with
      | ok b t => exact .inl ⟨a, s, t, rfl, by rw [related.1], related.2⟩
      | error f t => exact related.elim
  | error e s =>
      cases right with
      | ok b t => exact related.elim
      | error f t => exact .inr ⟨e, s, t, rfl, by rw [related.1], related.2⟩

theorem Related.final {left : EStateM.Result ε σ α} {right : EStateM.Result ε τ α}
    (related : Related R left right) : R (finalState left) (finalState right) := by
  rcases related_cases related with ⟨a, s, t, rfl, rfl, held⟩ | ⟨e, s, t, rfl, rfl, held⟩
  · exact held
  · exact held

theorem Related.threw_eq {left : EStateM.Result ε σ α} {right : EStateM.Result ε τ α}
    (related : Related R left right) : threw left = threw right := by
  rcases related_cases related with ⟨a, s, t, rfl, rfl, _⟩ | ⟨e, s, t, rfl, rfl, _⟩
  · rfl
  · rfl

theorem Related.weaken {left : EStateM.Result ε σ α} {right : EStateM.Result ε τ α}
    (related : Related S left right) (weaker : ∀ s t, S s t → T s t) : Related T left right := by
  rcases related_cases related with ⟨a, s, t, rfl, rfl, held⟩ | ⟨e, s, t, rfl, rfl, held⟩
  · exact ⟨rfl, weaker s t held⟩
  · exact ⟨rfl, weaker s t held⟩

theorem Simulates.weaken {program : EStateM ε σ α} {other : EStateM ε τ α}
    (simulates : Simulates R S program other) (weaker : ∀ s t, S s t → T s t) :
    Simulates R T program other := by
  intro s t held
  exact (simulates s t held).weaken weaker

theorem Related.bind {program : EStateM ε σ α} {other : EStateM ε τ α} {next : α → EStateM ε σ β}
    {otherNext : α → EStateM ε τ β} {s : σ} {t : τ} (first : Related R (program s) (other t))
    (weaker : ∀ s t, R s t → S s t) (second : ∀ a, Simulates R S (next a) (otherNext a)) :
    Related S ((program >>= next) s) ((other >>= otherNext) t) := by
  simp only [Bind.bind, EStateM.bind]
  rcases related_cases first with ⟨a, s', t', left, right, held⟩ | ⟨e, s', t', left, right, held⟩
  · rw [left, right]
    exact second a s' t' held
  · rw [left, right]
    exact ⟨rfl, weaker s' t' held⟩

theorem simulates_pure (a : α) :
    Simulates R R (pure a : EStateM ε σ α) (pure a : EStateM ε τ α) := by
  intro s t related
  exact ⟨rfl, related⟩

theorem Simulates.bind {program : EStateM ε σ α} {other : EStateM ε τ α} {next : α → EStateM ε σ β}
    {otherNext : α → EStateM ε τ β} (first : Simulates R S program other)
    (weaker : ∀ s t, S s t → T s t) (second : ∀ a, Simulates S T (next a) (otherNext a)) :
    Simulates R T (program >>= next) (other >>= otherNext) := by
  intro s t related
  exact (first s t related).bind weaker second

theorem Simulates.seq {program : EStateM ε σ α} {other : EStateM ε τ α} {next : α → EStateM ε σ β}
    {otherNext : α → EStateM ε τ β} (first : Simulates R R program other)
    (second : ∀ a, Simulates R R (next a) (otherNext a)) :
    Simulates R R (program >>= next) (other >>= otherNext) :=
  first.bind (fun _ _ related => related) second

theorem simulates_get {next : σ → EStateM ε σ α} {otherNext : τ → EStateM ε τ α}
    (rest : ∀ s t, R s t → Related S (next s s) (otherNext t t)) :
    Simulates R S (get >>= next) (get >>= otherNext) :=
  rest

theorem simulates_modify {change : σ → σ} {otherChange : τ → τ}
    (kept : ∀ s t, R s t → S (change s) (otherChange t)) :
    Simulates R S (modify change : EStateM ε σ PUnit) (modify otherChange : EStateM ε τ PUnit) := by
  intro s t related
  exact ⟨rfl, kept s t related⟩

theorem simulates_require {condition otherCondition : Bool} (same : condition = otherCondition) (e : ε) :
    Simulates R R (require condition e : EStateM ε σ PUnit) (require otherCondition e) := by
  intro s t related
  rw [same]
  cases otherCondition with
  | true => exact ⟨rfl, related⟩
  | false => exact ⟨rfl, related⟩

theorem simulates_guarded {condition otherCondition : Bool} {program : EStateM ε σ PUnit}
    {other : EStateM ε τ PUnit} (same : condition = otherCondition)
    (inner : Simulates R R program other) :
    Simulates R R (guarded condition program) (guarded otherCondition other) := by
  rw [same]
  cases otherCondition with
  | true => exact inner
  | false => exact simulates_pure _

theorem simulates_focus {σ' τ' : Type u} {Q P : σ' → τ' → Prop} {view : σ → σ'} {update : σ → σ' → σ}
    {otherView : τ → τ'} {otherUpdate : τ → τ' → τ} {program : EStateM ε σ' α} {other : EStateM ε τ' α}
    (inner : Simulates Q P program other) (before : ∀ s t, R s t → Q (view s) (otherView t))
    (after : ∀ s t b c, R s t → P b c → S (update s b) (otherUpdate t c)) :
    Simulates R S (focus view update program) (focus otherView otherUpdate other) := by
  intro s t related
  simp only [focus]
  rcases related_cases (inner _ _ (before s t related)) with
    ⟨a, b, c, left, right, held⟩ | ⟨e, b, c, left, right, held⟩
  · rw [left, right]
    exact ⟨rfl, after s t b c related held⟩
  · rw [left, right]
    exact ⟨rfl, after s t b c related held⟩

/-- The same state on both sides, of which something holds. -/
def Same (Holds : σ → Prop) (s t : σ) : Prop :=
  s = t ∧ Holds s

theorem Related.eq_of_same {Holds : σ → Prop} {left right : EStateM.Result ε σ α}
    (related : Related (Same Holds) left right) : left = right := by
  rcases related_cases related with ⟨a, s, t, rfl, rfl, held⟩ | ⟨e, s, t, rfl, rfl, held⟩
  · rw [held.1]
  · rw [held.1]

/-- What holds of the state that a program leaves, also when it throws. -/
def Establishes (Before After : σ → Prop) (program : EStateM ε σ α) : Prop :=
  ∀ s, Before s → After (finalState (program s))

section Establishes

variable {Before After : σ → Prop}

theorem establishes_focus {view : σ → τ} {update : σ → τ → σ}
    (kept : ∀ s t, Before s → After (update s t))
    (program : EStateM ε τ α) : Establishes Before After (focus view update program) := by
  intro s held
  simp only [focus]
  cases program (view s) with
  | ok a t => exact kept s t held
  | error e t => exact kept s t held

theorem Establishes.same {program : EStateM ε σ α} (establishes : Establishes Before After program) :
    Simulates (Same Before) (Same After) program program := by
  rintro s _ ⟨rfl, held⟩
  have final := establishes s held
  generalize program s = result at final ⊢
  cases result with
  | ok a t => exact ⟨rfl, rfl, final⟩
  | error e t => exact ⟨rfl, rfl, final⟩

theorem final_of_runs {program : EStateM ε σ α} {s t : σ} {a : α} (runs : Runs program s a t) :
    finalState (program s) = t := by
  unfold Runs at runs
  rw [runs]
  rfl

theorem final_of_throws {program : EStateM ε σ α} {s t : σ} {e : ε} (throws : Throws program s e t) :
    finalState (program s) = t := by
  unfold Throws at throws
  rw [throws]
  rfl

end Establishes

end Sne.Library.Simulation
