import Sne.Library.Exec

/-!
# Writers and readers

The state of a stream holds a list of items. A writer puts its items behind those
the state holds, and a reader takes its items from the front and leaves the rest,
whatever the rest is. The two kinds compose along the statements of a program.
-/

namespace Sne.Library.Codec

open Sne.Library.Exec

set_option autoImplicit false

universe u v

variable {ε σ α β : Type u} {ι : Type v} {holds : σ → List ι → Prop}

/-- The program appends `items` to what the state holds. -/
def Writes (holds : σ → List ι → Prop) (program : EStateM ε σ PUnit) (items : List ι) : Prop :=
  ∀ s before, holds s before → ∃ t, Runs program s ⟨⟩ t ∧ holds t (before ++ items)

/-- Before any further items, the program takes `items` and returns an accepted value. -/
def Reads (holds : σ → List ι → Prop) (program : EStateM ε σ α) (items : List ι)
    (Accepted : α → Prop) : Prop :=
  ∀ s rest, holds s (items ++ rest) → ∃ a t, Runs program s a t ∧ Accepted a ∧ holds t rest

theorem writes_pure : Writes holds (pure ⟨⟩ : EStateM ε σ PUnit) [] := by
  intro s before held
  exact ⟨s, runs_pure _ _, by simpa using held⟩

theorem Writes.bind {program next : EStateM ε σ PUnit} {items more : List ι}
    (first : Writes holds program items) (second : Writes holds next more) :
    Writes holds (program >>= fun _ => next) (items ++ more) := by
  intro s before held
  rcases first s before held with ⟨t, firstRuns, middle⟩
  rcases second t _ middle with ⟨u, secondRuns, last⟩
  exact ⟨u, firstRuns.bind secondRuns, by simpa using last⟩

theorem reads_pure {Accepted : α → Prop} {a : α} (accepted : Accepted a) :
    Reads holds (pure a : EStateM ε σ α) [] Accepted := by
  intro s rest held
  exact ⟨a, s, runs_pure _ _, accepted, held⟩

theorem Reads.bind {program : EStateM ε σ α} {next : α → EStateM ε σ β} {items more : List ι}
    {Accepted : α → Prop} {AcceptedNext : β → Prop} (first : Reads holds program items Accepted)
    (second : ∀ a, Accepted a → Reads holds (next a) more AcceptedNext) :
    Reads holds (program >>= next) (items ++ more) AcceptedNext := by
  intro s rest held
  rw [List.append_assoc] at held
  rcases first s _ held with ⟨a, t, firstRuns, accepted, middle⟩
  rcases second a accepted t rest middle with ⟨b, u, secondRuns, acceptedNext, last⟩
  exact ⟨b, u, firstRuns.bind secondRuns, acceptedNext, last⟩

/-- The last statement returns a function of what was read. -/
theorem Reads.returning {program : EStateM ε σ α} {items : List ι} {Accepted : α → Prop}
    {AcceptedNext : β → Prop} {change : α → β} (first : Reads holds program items Accepted)
    (accepted : ∀ a, Accepted a → AcceptedNext (change a)) :
    Reads holds (program >>= fun a => pure (change a)) items AcceptedNext := by
  rw [← List.append_nil items]
  apply first.bind
  intro a accept
  exact reads_pure (accepted a accept)

theorem Reads.map {program : EStateM ε σ α} {items : List ι} {Accepted : α → Prop}
    {AcceptedNext : β → Prop} {change : α → β} (first : Reads holds program items Accepted)
    (accepted : ∀ a, Accepted a → AcceptedNext (change a)) :
    Reads holds (change <$> program) items AcceptedNext := by
  intro s rest held
  rcases first s rest held with ⟨a, t, runs, accept, last⟩
  exact ⟨change a, t, runs.map change, accepted a accept, last⟩

theorem Reads.imp {program : EStateM ε σ α} {items : List ι} {Accepted AcceptedToo : α → Prop}
    (reads : Reads holds program items Accepted) (accepted : ∀ a, Accepted a → AcceptedToo a) :
    Reads holds program items AcceptedToo := by
  intro s rest held
  obtain ⟨a, t, runs, accept, last⟩ := reads s rest held
  exact ⟨a, t, runs, accepted a accept, last⟩

theorem writes_require {condition : Bool} (true : condition = true) (e : ε) :
    Writes holds (require condition e) [] := by
  intro s before held
  exact ⟨s, runs_require true e s, by simpa using held⟩

theorem reads_require {condition : Bool} (true : condition = true) (e : ε) :
    Reads holds (require condition e) [] (fun _ => True) := by
  intro s rest held
  exact ⟨⟨⟩, s, runs_require true e s, trivial, held⟩

/-- What is still to be written until the state holds `whole`. -/
def Awaits (holds : σ → List ι → Prop) (whole : List ι) (s : σ) (items : List ι) : Prop :=
  ∃ before, holds s before ∧ before ++ items = whole

theorem Writes.awaited {program : EStateM ε σ PUnit} {items : List ι}
    (writes : Writes holds program items) (whole : List ι) (a : α) :
    Reads (Awaits holds whole) (program >>= fun _ => pure a) items (fun result => result = a) := by
  rintro s rest ⟨before, held, same⟩
  obtain ⟨t, runs, after⟩ := writes s before held
  refine ⟨a, t, runs.bind (runs_pure a t), rfl, before ++ items, after, ?_⟩
  rw [List.append_assoc]
  exact same

/-- What the state holds, together with something that the programs leave alone. -/
def HoldsWith (holds : σ → List ι → Prop) (Keep : σ → Prop) (s : σ) (items : List ι) : Prop :=
  holds s items ∧ Keep s

theorem Writes.keeping {Keep : σ → Prop} {program : EStateM ε σ PUnit} {items : List ι}
    (writes : Writes holds program items) (keeps : Keeps Keep program) :
    Writes (HoldsWith holds Keep) program items := by
  intro s before held
  rcases writes s before held.1 with ⟨t, runs, after⟩
  exact ⟨t, runs, after, keeps s _ t held.2 runs⟩

theorem Reads.keeping {Keep : σ → Prop} {program : EStateM ε σ α} {items : List ι}
    {Accepted : α → Prop} (reads : Reads holds program items Accepted)
    (keeps : Keeps Keep program) : Reads (HoldsWith holds Keep) program items Accepted := by
  intro s rest held
  rcases reads s rest held.1 with ⟨a, t, runs, accepted, after⟩
  exact ⟨a, t, runs, accepted, after, keeps s a t held.2 runs⟩

def writeEach (write : α → EStateM ε σ PUnit) : List α → EStateM ε σ PUnit
  | [] => pure ⟨⟩
  | value :: rest => do
      write value
      writeEach write rest

theorem writes_each {write : α → EStateM ε σ PUnit} {encode : α → List ι} {values : List α}
    (writes : ∀ value ∈ values, Writes holds (write value) (encode value)) :
    Writes holds (writeEach write values) (values.flatMap encode) := by
  induction values with
  | nil => exact writes_pure
  | cons value rest induction =>
      have first := writes value (by simp)
      have others := induction fun other member => writes other (by simp [member])
      exact first.bind others

theorem keeps_each {Keep : σ → Prop} {write : α → EStateM ε σ PUnit}
    (keeps : ∀ value, Keeps Keep (write value)) (values : List α) :
    Keeps Keep (writeEach write values) := by
  induction values with
  | nil => exact keeps_pure _
  | cons value rest induction => exact (keeps value).bind fun _ => induction

def repeatStep (step : β → EStateM ε σ β) : Nat → β → EStateM ε σ β
  | 0, accumulated => pure accumulated
  | count + 1, accumulated => do
      let accumulated ← step accumulated
      repeatStep step count accumulated

theorem returns_repeat {step : β → EStateM ε σ β} (After : Nat → β → Prop)
    (round : ∀ done accumulated, After done accumulated → Returns (After (done + 1)) (step accumulated))
    (count : Nat) {accumulated : β} (before : After 0 accumulated) :
    Returns (After count) (repeatStep step count accumulated) := by
  suffices general : ∀ count done accumulated, After done accumulated →
      Returns (After (done + count)) (repeatStep step count accumulated) by
    have whole := general count 0 accumulated before
    rw [Nat.zero_add] at whole
    exact whole
  intro count
  induction count with
  | zero =>
      intro done accumulated before
      exact returns_pure before
  | succ count induction =>
      intro done accumulated before
      rw [show done + (count + 1) = done + 1 + count by omega]
      refine (round done accumulated before).bind ?_
      intro next after
      exact induction (done + 1) next after

/-- Each round reads the next value. `Done` relates the values read so far to what the
loop has accumulated. -/
theorem reads_repeat {step : β → EStateM ε σ β} {encode : α → List ι} {values : List α}
    (Done : List α → β → Prop)
    (round : ∀ done value rest accumulated, values = done ++ value :: rest →
      Done done accumulated → Reads holds (step accumulated) (encode value) (Done (done ++ [value])))
    {accumulated : β} (initial : Done [] accumulated) :
    Reads holds (repeatStep step values.length accumulated) (values.flatMap encode) (Done values) := by
  suffices general : ∀ rest done accumulated, values = done ++ rest → Done done accumulated →
      Reads holds (repeatStep step rest.length accumulated) (rest.flatMap encode) (Done values) from
    general values [] accumulated rfl initial
  intro rest
  induction rest with
  | nil =>
      intro done accumulated whole finished
      rw [List.append_nil] at whole
      rw [whole]
      exact reads_pure finished
  | cons value rest induction =>
      intro done accumulated whole sofar
      have first := round done value rest accumulated whole sofar
      apply first.bind
      intro next done'
      exact induction (done ++ [value]) next (by simpa using whole) done'

end Sne.Library.Codec
