import Mathlib.Logic.Relation

/-! A `while` loop over an explicit state, evaluated with fuel, and its relation to
the chain of body executions. -/

namespace Yolanda.Foundation

universe u v
variable {State : Type u} {Stop : Type v}

/-- A loop: its exit test, its body, and the report for an evaluation that runs out of fuel. -/
structure Loop (State : Type u) (Stop : Type v) where
  done : State → Bool
  body : State → Except Stop State
  unfinished : Stop

namespace Loop

variable {loop : Loop State Stop}

/-- Run the body until the exit test holds, at most `fuel` times. -/
def run (loop : Loop State Stop) : Nat → State → Except Stop State
  | 0, state => if loop.done state then .ok state else .error loop.unfinished
  | fuel + 1, state =>
    if loop.done state then .ok state
    else match loop.body state with
      | .ok next => loop.run fuel next
      | .error stop => .error stop

/-- One execution of the body. -/
def Step (loop : Loop State Stop) (state next : State) : Prop :=
  loop.done state = false ∧ loop.body state = .ok next

/-- The loop exits in `final`, whatever number of rounds that takes. -/
def Returns (loop : Loop State Stop) (state final : State) : Prop :=
  ∃ fuel, loop.run fuel state = .ok final

@[simp] theorem run_done (exits : loop.done state = true) (fuel : Nat) :
    loop.run fuel state = .ok state := by
  cases fuel <;> simp [run, exits]

theorem run_step (step : loop.Step state next) (fuel : Nat) :
    loop.run (fuel + 1) state = loop.run fuel next := by
  simp [run, step.1, step.2]

theorem Step.unique (first : loop.Step state next) (second : loop.Step state other) :
    next = other :=
  Except.ok.inj (first.2.symm.trans second.2)

/-- What a state leads to is the state itself or what its only successor leads to. -/
theorem Step.reaches (step : loop.Step state next)
    (chain : Relation.ReflTransGen loop.Step state later) :
    later = state ∨ Relation.ReflTransGen loop.Step next later := by
  rcases Relation.ReflTransGen.cases_head chain with same | ⟨middle, first, rest⟩
  · exact .inl same.symm
  · rw [step.unique first]
    exact .inr rest

/-- Where the exit test holds the chain ends. -/
theorem reaches_done (exits : loop.done state = true)
    (chain : Relation.ReflTransGen loop.Step state later) : later = state := by
  rcases Relation.ReflTransGen.cases_head chain with same | ⟨middle, first, _⟩
  · exact same.symm
  · rw [first.1] at exits
    cases exits

/-- More fuel does not change the result of a run that returns. -/
theorem run_mono {fuel more : Nat} (success : loop.run fuel state = .ok final)
    (enough : fuel ≤ more) : loop.run more state = .ok final := by
  induction fuel generalizing state more with
  | zero =>
    by_cases exits : loop.done state = true
    · rw [run_done exits] at success ⊢
      exact success
    · simp [run, exits] at success
  | succ fuel ih =>
    cases more with
    | zero => omega
    | succ more =>
      by_cases exits : loop.done state = true
      · rw [run_done exits] at success ⊢
        exact success
      · cases body : loop.body state with
        | error stop => simp [run, exits, body] at success
        | ok next =>
          simp only [run, exits, body, Bool.false_eq_true, ↓reduceIte] at success ⊢
          exact ih success (by omega)

/-- A run that returns has executed a chain of bodies and passed the exit test. -/
theorem run_sound {fuel : Nat} (success : loop.run fuel state = .ok final) :
    Relation.ReflTransGen loop.Step state final ∧ loop.done final = true := by
  induction fuel generalizing state with
  | zero =>
    by_cases exits : loop.done state = true
    · simp only [run, exits, ↓reduceIte, Except.ok.injEq] at success
      subst final
      exact ⟨.refl, exits⟩
    · simp [run, exits] at success
  | succ fuel ih =>
    by_cases exits : loop.done state = true
    · simp only [run, exits, ↓reduceIte, Except.ok.injEq] at success
      subst final
      exact ⟨.refl, exits⟩
    · cases body : loop.body state with
      | error stop => simp [run, exits, body] at success
      | ok next =>
        have rest : loop.run fuel next = .ok final := by simpa [run, exits, body] using success
        obtain ⟨chain, finished⟩ := ih rest
        exact ⟨.head ⟨by simpa using exits, body⟩ chain, finished⟩

/-- The loop returns exactly at the end of a chain of bodies. -/
theorem returns_iff :
    loop.Returns state final ↔
      Relation.ReflTransGen loop.Step state final ∧ loop.done final = true := by
  constructor
  · rintro ⟨fuel, success⟩
    exact run_sound success
  · rintro ⟨chain, finished⟩
    induction chain using Relation.ReflTransGen.head_induction_on with
    | refl => exact ⟨0, run_done finished 0⟩
    | head step _ ih =>
      obtain ⟨fuel, success⟩ := ih
      exact ⟨fuel + 1, by rw [run_step step, success]⟩

/-- A body that leaves its state alone is executed forever. -/
theorem run_stuck (running : loop.done state = false) (stuck : loop.body state = .ok state)
    (fuel : Nat) : loop.run fuel state = .error loop.unfinished := by
  induction fuel with
  | zero => simp [run, running]
  | succ fuel ih => rw [run_step ⟨running, stuck⟩, ih]

theorem not_returns_of_stuck (running : loop.done state = false)
    (stuck : loop.body state = .ok state) : ¬ loop.Returns state final := by
  rintro ⟨fuel, success⟩
  rw [run_stuck running stuck] at success
  cases success

theorem Returns.of_step (step : loop.Step state next) (rest : loop.Returns next final) :
    loop.Returns state final := by
  obtain ⟨fuel, success⟩ := rest
  exact ⟨fuel + 1, by rw [run_step step, success]⟩

theorem Returns.exists_step (result : loop.Returns state final)
    (running : loop.done state = false) : ∃ next, loop.Step state next := by
  obtain ⟨fuel, success⟩ := result
  cases fuel with
  | zero => simp [run, running] at success
  | succ fuel =>
    cases body : loop.body state with
    | error stop => simp [run, running, body] at success
    | ok next => exact ⟨next, running, body⟩

theorem Returns.step (result : loop.Returns state final) (step : loop.Step state next) :
    loop.Returns next final := by
  obtain ⟨fuel, success⟩ := result
  cases fuel with
  | zero => simp [run, step.1] at success
  | succ fuel => exact ⟨fuel, by rw [← success, run_step step]⟩

theorem Returns.unique (first : loop.Returns state final) (second : loop.Returns state other) :
    final = other := by
  obtain ⟨chain, finished⟩ := returns_iff.mp first
  clear first
  induction chain using Relation.ReflTransGen.head_induction_on with
  | refl =>
    obtain ⟨fuel, result⟩ := second
    rw [run_done finished] at result
    exact Except.ok.inj result
  | head step _ ih => exact ih (second.step step)

/-- Bodies that keep an invariant and lower a measure make a loop that returns with it. -/
theorem run_total (invariant : State → Prop) (measure : State → Nat)
    (advance : ∀ state, invariant state → loop.done state = false →
      ∃ next, loop.body state = .ok next ∧ invariant next ∧ measure next < measure state)
    {fuel : Nat} (start : invariant state) (enough : measure state ≤ fuel) :
    ∃ final, loop.run fuel state = .ok final ∧ invariant final ∧ loop.done final = true := by
  induction fuel generalizing state with
  | zero =>
    cases exits : loop.done state with
    | true => exact ⟨state, run_done exits 0, start, exits⟩
    | false =>
      obtain ⟨next, _, _, less⟩ := advance state start exits
      omega
  | succ fuel ih =>
    cases exits : loop.done state with
    | true => exact ⟨state, run_done exits _, start, exits⟩
    | false =>
      obtain ⟨next, body, kept, less⟩ := advance state start exits
      obtain ⟨final, result, holds⟩ := ih kept (by omega)
      exact ⟨final, (run_step ⟨exits, body⟩ fuel).trans result, holds⟩

end Loop

section Lockstep

universe w x y z
variable {Other : Type w} {OtherStop : Type x} {α : Type y} {β : Type z}

/-- Two computations end alike: with related results, or stopped for related reasons. -/
inductive EndAlike (results : α → β → Prop) (stops : Stop → OtherStop → Prop) :
    Except Stop α → Except OtherStop β → Prop
  | ok {result : α} {other : β} (related : results result other) :
      EndAlike results stops (.ok result) (.ok other)
  | error {stop : Stop} {other : OtherStop} (related : stops stop other) :
      EndAlike results stops (.error stop) (.error other)

/-- What is done with related results ends alike again. -/
theorem EndAlike.bind {γ : Type y} {δ : Type z} {results : α → β → Prop} {finals : γ → δ → Prop}
    {stops : Stop → OtherStop → Prop} {first : Except Stop α} {second : Except OtherStop β}
    {next : α → Except Stop γ} {other : β → Except OtherStop δ}
    (alike : EndAlike results stops first second)
    (rest : ∀ result value, results result value →
      EndAlike finals stops (next result) (other value)) :
    EndAlike finals stops (first >>= next) (second >>= other) := by
  cases alike with
  | ok related => exact rest _ _ related
  | error related => exact .error related

/-- Loops whose bodies, from related states, lead to related states. -/
structure Lockstep (loop : Loop State Stop) (other : Loop Other OtherStop)
    (related : State → Other → Prop) (stops : Stop → OtherStop → Prop) : Prop where
  exits : ∀ state place, related state place → loop.done state = other.done place
  body : ∀ state place, related state place → loop.done state = false →
    EndAlike related stops (loop.body state) (other.body place)
  unfinished : stops loop.unfinished other.unfinished

/-- Loops in lockstep take the same number of rounds to the same end. -/
theorem Lockstep.run {loop : Loop State Stop} {other : Loop Other OtherStop}
    {related : State → Other → Prop} {stops : Stop → OtherStop → Prop}
    (lockstep : Lockstep loop other related stops) {state : State} {place : Other}
    (start : related state place) (fuel : Nat) :
    EndAlike related stops (loop.run fuel state) (other.run fuel place) := by
  induction fuel generalizing state place with
  | zero =>
    rw [Loop.run, Loop.run, ← lockstep.exits state place start]
    split
    · exact .ok start
    · exact .error lockstep.unfinished
  | succ fuel ih =>
    rw [Loop.run, Loop.run, ← lockstep.exits state place start]
    split
    · exact .ok start
    · rename_i running
      have alike := lockstep.body state place start (Bool.eq_false_iff.mpr running)
      generalize loop.body state = first, other.body place = second at alike
      cases alike with
      | ok related => exact ih related
      | error related => exact .error related

end Lockstep

end Yolanda.Foundation
