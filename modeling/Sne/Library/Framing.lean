import Mathlib.Data.List.Basic

/-!
# Incremental framing

A consumer looks at the items that have arrived and not yet been used. It waits
for more, gives up, or uses a nonempty block from the front. When it uses a block
or gives up, items behind those it saw make no difference. Then it does not
matter in which chunks the items arrive.
-/

namespace Sne.Library.Framing

set_option autoImplicit false

universe u v

inductive Verdict (σ : Type u) where
  | wait
  | fail (state : σ)
  | take (count : Nat) (state : σ)

structure Consumer (σ : Type u) (ι : Type v) where
  step : σ → List ι → Verdict σ
  take_bounds : ∀ {state items count next}, step state items = .take count next →
    0 < count ∧ count ≤ items.length
  take_stable : ∀ {state items count next}, step state items = .take count next →
    ∀ more, step state (items ++ more) = .take count next
  fail_stable : ∀ {state items next}, step state items = .fail next →
    ∀ more, step state (items ++ more) = .fail next

inductive Outcome (σ : Type u) (ι : Type v) where
  | more (state : σ) (rest : List ι)
  | failed (state : σ)

variable {σ : Type u} {ι : Type v}

/-- The consumer runs until it waits or gives up. -/
inductive Drains (consumer : Consumer σ ι) : σ → List ι → Outcome σ ι → Prop where
  | wait {state items} : consumer.step state items = .wait →
      Drains consumer state items (.more state items)
  | fail {state items next} : consumer.step state items = .fail next →
      Drains consumer state items (.failed next)
  | take {state items count next outcome} : consumer.step state items = .take count next →
      Drains consumer next (items.drop count) outcome → Drains consumer state items outcome

/-- Chunks arrive one after another, and none is looked at after a failure. -/
inductive Feeds (consumer : Consumer σ ι) : Outcome σ ι → List (List ι) → Outcome σ ι → Prop where
  | done {outcome} : Feeds consumer outcome [] outcome
  | stopped {state chunks} : Feeds consumer (.failed state) chunks (.failed state)
  | chunk {state rest chunk chunks middle outcome} :
      Drains consumer state (rest ++ chunk) middle → Feeds consumer middle chunks outcome →
      Feeds consumer (.more state rest) (chunk :: chunks) outcome

theorem Drains.unique {consumer : Consumer σ ι} {state : σ} {items : List ι}
    {left right : Outcome σ ι} (first : Drains consumer state items left)
    (second : Drains consumer state items right) : left = right := by
  induction first with
  | wait waits =>
      cases second with
      | wait _ => rfl
      | fail fails => rw [waits] at fails; cases fails
      | take takes _ => rw [waits] at takes; cases takes
  | fail fails =>
      cases second with
      | wait waits => rw [waits] at fails; cases fails
      | fail other =>
          rw [fails] at other
          cases other
          rfl
      | take takes _ => rw [fails] at takes; cases takes
  | take takes _ induction =>
      cases second with
      | wait waits => rw [waits] at takes; cases takes
      | fail fails => rw [fails] at takes; cases takes
      | take other rest =>
          rw [takes] at other
          cases other
          exact induction rest

/-- A run that starts with a block goes on behind it. -/
theorem Drains.after_take {consumer : Consumer σ ι} {state next : σ} {items : List ι} {count : Nat}
    {outcome : Outcome σ ι} (drains : Drains consumer state items outcome)
    (takes : consumer.step state items = .take count next) :
    Drains consumer next (items.drop count) outcome := by
  cases drains with
  | wait waits => rw [takes] at waits; cases waits
  | fail fails => rw [takes] at fails; cases fails
  | take other rest =>
      rw [takes] at other
      cases other
      exact rest

/-- A run on a part of the items that ends in waiting can be continued. -/
theorem Drains.continue {consumer : Consumer σ ι} {state next : σ} {items rest more : List ι}
    {outcome : Outcome σ ι} (first : Drains consumer state items (.more next rest))
    (second : Drains consumer next (rest ++ more) outcome) :
    Drains consumer state (items ++ more) outcome := by
  generalize same : Outcome.more next rest = middle at first
  induction first with
  | wait _ =>
      cases same
      exact second
  | fail _ => cases same
  | take takes _ induction =>
      have bounds := consumer.take_bounds takes
      refine .take (consumer.take_stable takes more) ?_
      rw [List.drop_append_of_le_length bounds.2]
      exact induction same

theorem Drains.failed_append {consumer : Consumer σ ι} {state next : σ} {items : List ι}
    (first : Drains consumer state items (.failed next)) (more : List ι) :
    Drains consumer state (items ++ more) (.failed next) := by
  generalize same : Outcome.failed next = middle at first
  induction first with
  | wait _ => cases same
  | fail fails =>
      cases same
      exact .fail (consumer.fail_stable fails more)
  | take takes _ induction =>
      have bounds := consumer.take_bounds takes
      refine .take (consumer.take_stable takes more) ?_
      rw [List.drop_append_of_le_length bounds.2]
      exact induction same

/-- What was left to wait for stays unused until something arrives. -/
theorem Drains.waits {consumer : Consumer σ ι} {state next : σ} {items rest : List ι}
    (first : Drains consumer state items (.more next rest)) : consumer.step next rest = .wait := by
  generalize same : Outcome.more next rest = middle at first
  induction first with
  | wait waits =>
      cases same
      exact waits
  | fail _ => cases same
  | take _ _ induction => exact induction same

theorem Feeds.drains {consumer : Consumer σ ι} {state : σ} {rest : List ι}
    {chunks : List (List ι)} {outcome : Outcome σ ι} (waits : consumer.step state rest = .wait)
    (feeds : Feeds consumer (.more state rest) chunks outcome) :
    Drains consumer state (rest ++ chunks.flatten) outcome := by
  induction chunks generalizing state rest with
  | nil =>
      cases feeds
      rw [List.flatten_nil, List.append_nil]
      exact .wait waits
  | cons chunk chunks induction =>
      rw [List.flatten_cons, ← List.append_assoc]
      cases feeds with
      | chunk drains feeds =>
          rename_i middle
          cases middle with
          | more next left =>
              exact drains.continue (induction drains.waits feeds)
          | failed next =>
              have same : outcome = .failed next := by
                cases feeds <;> rfl
              rw [same]
              exact drains.failed_append _

end Sne.Library.Framing
