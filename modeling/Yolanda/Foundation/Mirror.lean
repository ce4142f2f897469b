import Mathlib.Data.Option.Basic
import Yolanda.Foundation.Run

/-! Two programs of which one computes what the other computes, seen through a function, and
their runs. How a program fails is not compared. -/

namespace Yolanda.Foundation

universe u v w

section Outcomes

variable {α β γ δ : Type u} {ε : Type v} {ζ : Type w}
variable {view : α → β} {image : γ → δ}
variable {first : Except ε α} {other : Except ζ β}

/-- Both programs fail, or the result of the second is that of the first seen through
`view`. -/
def Mirrors (view : α → β) (first : Except ε α) (other : Except ζ β) : Prop :=
  first.toOption.map view = other.toOption

theorem Mirrors.ok {value : α} {result : β} (same : view value = result) :
    Mirrors view (.ok value : Except ε α) (.ok result : Except ζ β) :=
  congrArg some same

theorem Mirrors.error (stop : ε) (fault : ζ) :
    Mirrors view (.error stop : Except ε α) (.error fault : Except ζ β) := rfl

theorem Mirrors.of_ok {value : α} (mirrors : Mirrors view first other)
    (success : first = .ok value) : other = .ok (view value) := by
  subst success
  cases other with
  | error fault => cases mirrors
  | ok result => exact congrArg Except.ok (Option.some.inj mirrors).symm

theorem Mirrors.ok_of {result : β} (mirrors : Mirrors view first other)
    (success : other = .ok result) : ∃ value, first = .ok value ∧ view value = result := by
  subst success
  cases first with
  | error stop => cases mirrors
  | ok value => exact ⟨value, rfl, Option.some.inj mirrors⟩

/-- Mirrored programs stay so when what follows them is mirrored. -/
theorem Mirrors.bind {next : α → Except ε γ} {later : β → Except ζ δ}
    (mirrors : Mirrors view first other)
    (rest : ∀ value, first = .ok value → Mirrors image (next value) (later (view value))) :
    Mirrors image (first >>= next) (other >>= later) := by
  cases first with
  | error stop =>
    cases other with
    | error fault => rfl
    | ok result => cases mirrors
  | ok value =>
    rw [mirrors.of_ok rfl]
    exact rest value rfl

/-- Programs that ask the same question are mirrored when both their branches are. -/
theorem Mirrors.ite {condition : Prop} [Decidable condition] {otherwise : Except ε α}
    {instead : Except ζ β} (holds : condition → Mirrors view first other)
    (fails : ¬ condition → Mirrors view otherwise instead) :
    Mirrors view (if condition then first else otherwise)
      (if condition then other else instead) := by
  by_cases asked : condition
  · rw [if_pos asked, if_pos asked]
    exact holds asked
  · rw [if_neg asked, if_neg asked]
    exact fails asked

end Outcomes

section Runs

variable {State : Type u} {Image : Type u} {Event : Type v} {Stop : Type w} {Fault : Type w}
variable {step : State → Event → Except Stop State}
variable {mirror : Image → Event → Except Fault Image}
variable {view : State → Image}

theorem Mirrors.run_cons {state : State} {event : Event} {events : List Event}
    (mirrors : Mirrors view (step state event) (mirror (view state) event))
    (rest : ∀ next, step state event = .ok next →
      Mirrors view (run step next events) (run mirror (view next) events)) :
    Mirrors view (run step state (event :: events)) (run mirror (view state) (event :: events)) := by
  cases taken : step state event with
  | error stop =>
    cases same : mirror (view state) event with
    | error fault =>
      simp only [run, taken, same]
      exact .error stop fault
    | ok result =>
      rw [taken, same] at mirrors
      cases mirrors
  | ok next =>
    have same := mirrors.of_ok taken
    simp only [run, taken, same]
    exact rest next taken

/-- Runs over the same events are mirrored at each of their states. -/
def MirrorsAlong (view : State → Image) (step : State → Event → Except Stop State)
    (mirror : Image → Event → Except Fault Image) (state : State) (events : List Event) : Prop :=
  ∀ before, before <+: events →
    Mirrors view (run step state before) (run mirror (view state) before)

/-- The first step of runs that are mirrored all along. -/
theorem MirrorsAlong.first {state : State} {event : Event} {events : List Event}
    (along : MirrorsAlong view step mirror state (event :: events)) :
    Mirrors view (step state event) (mirror (view state) event) := by
  have short := along [event] (List.prefix_append [event] events)
  cases taken : step state event with
  | error stop =>
    cases same : mirror (view state) event with
    | error fault => rfl
    | ok result =>
      simp only [run, taken, same] at short
      cases short
  | ok next =>
    cases same : mirror (view state) event with
    | error fault =>
      simp only [run, taken, same] at short
      cases short
    | ok result =>
      simp only [run, taken, same] at short
      exact short

/-- Given steps that are mirrored exactly under the condition make runs that are mirrored
exactly when all their steps meet it. -/
theorem mirrorsAlong_iff {given condition : State → Event → Prop} {good : State → Prop}
    (advance : ∀ state event, good state → given state event → condition state event →
      Mirrors view (step state event) (mirror (view state) event) ∧
        ∀ next, step state event = .ok next → good next)
    (fall : ∀ state event, good state → given state event → ¬ condition state event →
      ¬ Mirrors view (step state event) (mirror (view state) event))
    {state : State} {events : List Event} (start : good state)
    (allowed : Along step given state events) :
    MirrorsAlong view step mirror state events ↔ Along step condition state events := by
  induction events generalizing state with
  | nil =>
    constructor
    · exact fun _ => trivial
    · intro _ before front
      cases List.prefix_nil.mp front
      exact .ok rfl
  | cons event events ih =>
    constructor
    · intro along
      have one := along.first
      have met : condition state event := by
        by_contra unmet
        exact fall state event start allowed.1 unmet one
      refine ⟨met, ?_⟩
      intro next taken
      obtain ⟨_, kept⟩ := advance state event start allowed.1 met
      apply (ih (kept next taken) (allowed.2 next taken)).mp
      intro before front
      have longer := along (event :: before) (List.cons_prefix_cons.mpr ⟨rfl, front⟩)
      rwa [Foundation.run_cons taken, Foundation.run_cons (one.of_ok taken)] at longer
    · rintro ⟨met, rest⟩ before front
      obtain ⟨mirrors, kept⟩ := advance state event start allowed.1 met
      cases before with
      | nil => exact .ok rfl
      | cons head before =>
        obtain ⟨rfl, inner⟩ := List.cons_prefix_cons.mp front
        apply mirrors.run_cons
        intro next taken
        exact (ih (kept next taken) (allowed.2 next taken)).mpr (rest next taken) before inner

end Runs

end Yolanda.Foundation
