import Mathlib.Data.List.Flatten
import Sne.Library.Framing

/-!
# Frames in a stream

A consumer that knows which frames are to come takes each of them as one block, or
gives up at it, and waits for the rest of a frame that has arrived in part. From a
stream of frames that was cut anywhere it then takes exactly the whole frames.
-/

namespace Sne.Library.Framing

set_option autoImplicit false

universe u v w

variable {σ : Type u} {ι : Type v} {Frame : Type w}

/-- The consumer takes the frames that it expects one at a time. -/
structure Frames (consumer : Consumer σ ι) (items : Frame → List ι)
    (Expects Refused : σ → List Frame → Prop) : Prop where
  part : ∀ {state frames available}, Expects state frames →
    (∀ frame, frames.head? = some frame → available.length < (items frame).length) →
    available <+: (frames.map items).flatten → consumer.step state available = .wait
  whole : ∀ {state frame frames}, Expects state (frame :: frames) → ∀ more,
    (∃ next, consumer.step state (items frame ++ more) = .take (items frame).length next ∧
      Expects next frames) ∨
    ∃ next, consumer.step state (items frame ++ more) = .fail next ∧ Refused next frames

/-- What becomes of the items that are available: whole frames are used, and the rest is less than
a frame, unless a frame was refused. -/
inductive Uses (items : Frame → List ι) (Expects Refused : σ → List Frame → Prop)
    (frames : List Frame) (available : List ι) : Outcome σ ι → Prop where
  | more (used : List Frame) {left : List Frame} {next : σ} {rest : List ι} : frames = used ++ left →
      available = (used.map items).flatten ++ rest →
      (∀ frame, left.head? = some frame → rest.length < (items frame).length) →
      Expects next left → Uses items Expects Refused frames available (.more next rest)
  | failed (used : List Frame) {left : List Frame} {next : σ} : frames = used ++ left → Refused next left →
      Uses items Expects Refused frames available (.failed next)

theorem Uses.behind {items : Frame → List ι} {Expects Refused : σ → List Frame → Prop}
    {frame : Frame} {frames : List Frame} {available : List ι} {outcome : Outcome σ ι}
    (uses : Uses items Expects Refused frames available outcome) :
    Uses items Expects Refused (frame :: frames) (items frame ++ available) outcome := by
  cases uses with
  | more used split same short expects =>
      refine .more (frame :: used) ?_ ?_ short expects
      · rw [split, List.cons_append]
      · rw [same, List.map_cons, List.flatten_cons, List.append_assoc]
  | failed used split refused =>
      refine .failed (frame :: used) ?_ refused
      rw [split, List.cons_append]

/-- What is available of a stream of frames is used up to the last whole frame. -/
theorem Frames.drains {consumer : Consumer σ ι} {items : Frame → List ι}
    {Expects Refused : σ → List Frame → Prop} (taken : Frames consumer items Expects Refused)
    {state : σ} {frames : List Frame} {available : List ι} (expects : Expects state frames)
    (streamed : available <+: (frames.map items).flatten) :
    ∃ outcome, Drains consumer state available outcome ∧
      Uses items Expects Refused frames available outcome := by
  induction frames generalizing state available with
  | nil =>
      have short : ∀ frame, ([] : List Frame).head? = some frame →
          available.length < (items frame).length := nofun
      refine ⟨_, .wait (taken.part expects short streamed), ?_⟩
      exact .more [] rfl rfl short expects
  | cons frame frames induction =>
      by_cases short : available.length < (items frame).length
      · have partly : ∀ other, (frame :: frames).head? = some other →
            available.length < (items other).length := by
          intro other same
          cases same
          exact short
        refine ⟨_, .wait (taken.part expects partly streamed), ?_⟩
        exact .more [] rfl rfl partly expects
      · rw [List.map_cons, List.flatten_cons] at streamed
        have front : items frame <+: available :=
          List.prefix_of_prefix_length_le (List.prefix_append _ _) streamed (Nat.le_of_not_lt short)
        obtain ⟨more, rfl⟩ := front
        have behind := (List.prefix_append_right_inj (items frame)).mp streamed
        rcases taken.whole expects more with ⟨next, takes, expectsNext⟩ | ⟨next, fails, refused⟩
        · obtain ⟨outcome, drains, uses⟩ := induction expectsNext behind
          refine ⟨outcome, .take takes ?_, uses.behind⟩
          rw [List.drop_left]
          exact drains
        · exact ⟨_, .fail fails, .failed [frame] rfl refused⟩

/-- Frames that were used are all the frames that were available, when no items of them are missing
and the rest is less than a frame. -/
theorem used_frames {used left available : List (List ι)} (rest : List ι)
    (front : available <+: used ++ left) (same : used.flatten ++ rest = available.flatten)
    (nonempty : ∀ frame ∈ used, 0 < frame.length)
    (short : ∀ frame, left.head? = some frame → rest.length < frame.length) : used = available := by
  rcases List.prefix_or_prefix_of_prefix front (List.prefix_append used left) with
    ⟨more, split⟩ | ⟨more, split⟩
  · -- the frames behind the available ones have no items, so that there are none
    rw [← split, List.flatten_append, List.append_assoc] at same
    have nothing := List.append_eq_nil_iff.mp (List.append_right_eq_self.mp same)
    cases more with
    | nil => rw [← split, List.append_nil]
    | cons frame others =>
        have some := nonempty frame (by rw [← split]; simp)
        have none : frame = [] := List.flatten_eq_nil_iff.mp nothing.1 frame (List.mem_cons_self ..)
        rw [none] at some
        cases some
  · -- the frames behind the used ones are in the rest, which is less than the first of them
    rw [← split] at front same
    rw [List.flatten_append] at same
    have rest_eq := List.append_cancel_left same
    have behind := (List.prefix_append_right_inj used).mp front
    cases more with
    | nil => rw [← split, List.append_nil]
    | cons frame others =>
        obtain ⟨later, whole⟩ := behind
        have few := short frame (by rw [← whole]; rfl)
        rw [rest_eq, List.flatten_cons, List.length_append] at few
        omega

end Sne.Library.Framing
