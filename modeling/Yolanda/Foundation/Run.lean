import Mathlib.Data.List.Basic

/-! Runs of a step function that may fail, and the rules that carry an invariant
over a whole run. -/

namespace Yolanda.Foundation

universe u v w
variable {State : Type u} {Event : Type v} {Stop : Type w}
variable {step : State → Event → Except Stop State}

/-- Take the steps of a list of events one after the other, up to the first failure. -/
def run (step : State → Event → Except Stop State) (state : State) :
    List Event → Except Stop State
  | [] => .ok state
  | event :: events =>
    match step state event with
    | .ok next => run step next events
    | .error stop => .error stop

/-- Every step of the run starts in a state, and takes an event, as the condition wants. -/
def Along (step : State → Event → Except Stop State) (condition : State → Event → Prop) :
    State → List Event → Prop
  | _, [] => True
  | state, event :: events => condition state event ∧
      ∀ next, step state event = .ok next → Along step condition next events

@[simp] theorem run_nil (step : State → Event → Except Stop State) (state : State) :
    run step state [] = .ok state := rfl

theorem run_cons {event : Event} (success : step state event = .ok next) (events : List Event) :
    run step state (event :: events) = run step next events := by
  simp only [run, success]

theorem along_cons_of_ok {condition : State → Event → Prop} {event : Event} {events : List Event}
    (taken : step state event = .ok next) :
    Along step condition state (event :: events) ↔
      condition state event ∧ Along step condition next events := by
  refine and_congr_right fun _ => ⟨fun rest => rest next taken, ?_⟩
  intro rest other again
  cases taken.symm.trans again
  exact rest

/-- Whether a run is as the condition wants can be tested by running it. -/
instance decidableAlong (step : State → Event → Except Stop State)
    (condition : State → Event → Prop) [∀ state event, Decidable (condition state event)] :
    ∀ state events, Decidable (Along step condition state events)
  | _, [] => .isTrue trivial
  | state, event :: events =>
    match taken : step state event with
    | .ok next =>
      have := decidableAlong step condition next events
      decidable_of_iff' _ (along_cons_of_ok taken)
    | .error _ => decidable_of_iff (condition state event)
        ⟨fun met => ⟨met, fun _ again => by cases taken.symm.trans again⟩, And.left⟩

/-- A run over one event more is a run and a step. -/
theorem run_cons_ok {event : Event} {events : List Event} :
    run step state (event :: events) = .ok final ↔
      ∃ next, step state event = .ok next ∧ run step next events = .ok final := by
  cases taken : step state event with
  | error stop => simp [run, taken]
  | ok next => simp [run, taken]

theorem run_append {first second : List Event} :
    run step state (first ++ second) = .ok final ↔
      ∃ middle, run step state first = .ok middle ∧ run step middle second = .ok final := by
  induction first generalizing state with
  | nil => simp
  | cons event events ih =>
    simp only [List.cons_append, run_cons_ok, ih]
    constructor
    · intro ⟨next, taken, middle, before, after⟩
      exact ⟨middle, ⟨next, taken, before⟩, after⟩
    · intro ⟨middle, ⟨next, taken, before⟩, after⟩
      exact ⟨next, taken, middle, before, after⟩

/-- Behind a run that succeeds a run goes on from its end. -/
theorem run_append_of_ok {first : List Event} (success : run step state first = .ok middle)
    (second : List Event) : run step state (first ++ second) = run step middle second := by
  induction first generalizing state with
  | nil =>
    cases success
    rfl
  | cons event first ih =>
    obtain ⟨next, taken, rest⟩ := run_cons_ok.mp success
    rw [List.cons_append, run_cons taken, ih rest]

/-- What each step keeps, when it meets the condition, holds at the end of the run. -/
theorem run_invariant {condition : State → Event → Prop} (invariant : State → Prop)
    (preserve : ∀ state event next, invariant state → condition state event →
      step state event = .ok next → invariant next)
    {events : List Event} (start : invariant state) (along : Along step condition state events)
    (success : run step state events = .ok final) : invariant final := by
  induction events generalizing state with
  | nil =>
    cases success
    exact start
  | cons event events ih =>
    obtain ⟨next, taken, rest⟩ := run_cons_ok.mp success
    exact ih (preserve state event next start along.1 taken) (along.2 next taken) rest

/-- What every failure of a step under the condition has is had by the failure of a run. -/
theorem run_stops_along {condition : State → Event → Prop} {property : Stop → Prop}
    (invariant : State → Prop)
    (preserve : ∀ state event next, invariant state → condition state event →
      step state event = .ok next → invariant next)
    (stops : ∀ state event stop, invariant state → condition state event →
      step state event = .error stop → property stop)
    {events : List Event} (start : invariant state) (along : Along step condition state events)
    (failure : run step state events = .error stop) : property stop := by
  induction events generalizing state with
  | nil => cases failure
  | cons event events ih =>
    cases taken : step state event with
    | error fault =>
      simp only [run, taken, Except.error.injEq] at failure
      exact failure ▸ stops state event fault start along.1 taken
    | ok next =>
      simp only [run, taken] at failure
      exact ih (preserve state event next start along.1 taken) (along.2 next taken) failure

/-- Steps that succeed under the condition make a run that succeeds. -/
theorem run_succeeds {condition : State → Event → Prop} (invariant : State → Prop)
    (advance : ∀ state event, invariant state → condition state event →
      ∃ next, step state event = .ok next ∧ invariant next)
    {events : List Event} (start : invariant state) (along : Along step condition state events) :
    ∃ final, run step state events = .ok final ∧ invariant final := by
  induction events generalizing state with
  | nil => exact ⟨state, rfl, start⟩
  | cons event events ih =>
    obtain ⟨next, taken, kept⟩ := advance state event start along.1
    obtain ⟨final, rest, finished⟩ := ih kept (along.2 next taken)
    exact ⟨final, (run_cons taken events).trans rest, finished⟩

theorem Along.of_forall {condition : State → Event → Prop} {events : List Event}
    (holds : ∀ state, ∀ event ∈ events, condition state event) (state : State) :
    Along step condition state events := by
  induction events generalizing state with
  | nil => trivial
  | cons event events ih =>
    constructor
    · exact holds state event (List.mem_cons_self ..)
    · intro next _
      exact ih (fun state other member => holds state other (List.mem_cons_of_mem _ member)) next

/-- What every step keeps holds at the end of any run. -/
theorem run_keeps (invariant : State → Prop)
    (preserve : ∀ state event next, invariant state → step state event = .ok next →
      invariant next)
    {events : List Event} (start : invariant state) (success : run step state events = .ok final) :
    invariant final :=
  run_invariant invariant (fun state event next kept _ => preserve state event next kept) start
    (Along.of_forall (fun _ _ _ => trivial) state) success

/-- What every failure of a step has is had by the failure of a run. -/
theorem run_stops {property : Stop → Prop} (invariant : State → Prop)
    (preserve : ∀ state event next, invariant state → step state event = .ok next →
      invariant next)
    (stops : ∀ state event stop, invariant state → step state event = .error stop →
      property stop)
    {events : List Event} (start : invariant state) (failure : run step state events = .error stop) :
    property stop :=
  run_stops_along invariant (fun state event next kept _ => preserve state event next kept)
    (fun state event stop kept _ => stops state event stop kept) start
    (Along.of_forall (fun _ _ _ => trivial) state) failure

/-- Where a step of the kind makes the measure less as long as a state has not settled, steps of
the kind lead to one that has. -/
theorem run_settles (kind : Event → Prop) (settled invariant : State → Prop)
    (measure : State → Nat)
    (goes_on : ∀ state, invariant state → ¬ settled state → ∃ event next, kind event ∧
      step state event = .ok next ∧ invariant next ∧ measure next < measure state)
    (start : invariant state) :
    ∃ events final, (∀ event ∈ events, kind event) ∧ run step state events = .ok final ∧
      invariant final ∧ settled final := by
  induction size : measure state using Nat.strongRecOn generalizing state with
  | ind size ih =>
    by_cases ended : settled state
    · exact ⟨[], state, fun _ member => (nomatch member), rfl, start, ended⟩
    · obtain ⟨event, next, allowed, taken, kept, less⟩ := goes_on state start ended
      obtain ⟨events, final, all, success, rest⟩ := ih (measure next) (size ▸ less) kept rfl
      exact ⟨event :: events, final, List.forall_mem_cons.mpr ⟨allowed, all⟩,
        (run_cons taken events).trans success, rest⟩

/-- There are only as many steps that make the measure less. -/
theorem run_length_le {condition : State → Event → Prop} (measure : State → Nat)
    (invariant : State → Prop)
    (less : ∀ state event next, invariant state → condition state event →
      step state event = .ok next → invariant next ∧ measure next < measure state)
    {events : List Event} (start : invariant state) (along : Along step condition state events)
    (success : run step state events = .ok final) :
    events.length + measure final ≤ measure state := by
  induction events generalizing state with
  | nil =>
    cases success
    simp
  | cons event events ih =>
    obtain ⟨next, taken, rest⟩ := run_cons_ok.mp success
    obtain ⟨kept, fewer⟩ := less state event next start along.1 taken
    have later := ih kept (along.2 next taken) rest
    rw [List.length_cons]
    omega

/-- Steps that succeed only under the condition make a run of such steps. -/
theorem along_of_run {condition : State → Event → Prop} (invariant : State → Prop)
    (preserve : ∀ state event next, invariant state → step state event = .ok next →
      invariant next)
    (met : ∀ state event next, invariant state → step state event = .ok next →
      condition state event)
    {events : List Event} (start : invariant state) (success : run step state events = .ok final) :
    Along step condition state events := by
  induction events generalizing state with
  | nil => trivial
  | cons event events ih =>
    obtain ⟨next, taken, rest⟩ := run_cons_ok.mp success
    refine ⟨met state event next start taken, fun other again => ?_⟩
    cases taken.symm.trans again
    exact ih (preserve state event next start taken) rest

/-- What each step shows under the condition, it shows along the whole run. -/
theorem Along.imp {condition conclusion : State → Event → Prop} (invariant : State → Prop)
    (preserve : ∀ state event next, invariant state → condition state event →
      step state event = .ok next → invariant next)
    (shows : ∀ state event, invariant state → condition state event → conclusion state event)
    {events : List Event} (start : invariant state) (along : Along step condition state events) :
    Along step conclusion state events := by
  induction events generalizing state with
  | nil => trivial
  | cons event events ih =>
    constructor
    · exact shows state event start along.1
    · intro next taken
      exact ih (preserve state event next start along.1 taken) (along.2 next taken)

/-- A weaker condition is met wherever the condition is. -/
theorem Along.weaken {condition conclusion : State → Event → Prop} {events : List Event}
    (shows : ∀ state event, condition state event → conclusion state event)
    (along : Along step condition state events) : Along step conclusion state events :=
  Along.imp (fun _ => True) (fun _ _ _ _ _ _ => trivial) (fun state event _ => shows state event)
    trivial along

/-- A property that no step restores holds at the start of a run that ends with it. -/
theorem run_backward (invariant property : State → Prop)
    (keep : ∀ state event next, invariant state → step state event = .ok next → invariant next)
    (lost : ∀ state event next, invariant state → step state event = .ok next →
      property next → property state)
    {events : List Event} (start : invariant state) (success : run step state events = .ok final)
    (finish : property final) : property state := by
  induction events generalizing state with
  | nil =>
    cases success
    exact finish
  | cons event events ih =>
    obtain ⟨next, taken, rest⟩ := run_cons_ok.mp success
    have later := ih (keep state event next start taken) rest
    exact lost state event next start taken later

/-- In a run of given steps such a property holds at the end exactly when every step keeps
it. -/
theorem run_along_iff_of {given condition : State → Event → Prop}
    (invariant property : State → Prop)
    (keep : ∀ state event next, invariant state → step state event = .ok next → invariant next)
    (lost : ∀ state event next, invariant state → step state event = .ok next →
      property next → property state)
    (exact : ∀ state event next, invariant state → property state → given state event →
      step state event = .ok next → (property next ↔ condition state event))
    {events : List Event} (start : invariant state) (holds : property state)
    (allowed : Along step given state events) (success : run step state events = .ok final) :
    property final ↔ Along step condition state events := by
  induction events generalizing state with
  | nil =>
    cases success
    exact ⟨fun _ => trivial, fun _ => holds⟩
  | cons event events ih =>
    obtain ⟨next, taken, rest⟩ := run_cons_ok.mp success
    have kept := keep state event next start taken
    have first := exact state event next start holds allowed.1 taken
    have later := allowed.2 next taken
    constructor
    · intro finish
      have before := run_backward invariant property keep lost kept rest finish
      refine ⟨first.mp before, ?_⟩
      intro other same
      cases taken.symm.trans same
      exact (ih kept before later rest).mp finish
    · intro along
      have before := first.mpr along.1
      exact (ih kept before later rest).mpr (along.2 next taken)

/-- Any run is one of given steps. -/
theorem run_along_iff {condition : State → Event → Prop} (invariant property : State → Prop)
    (keep : ∀ state event next, invariant state → step state event = .ok next → invariant next)
    (lost : ∀ state event next, invariant state → step state event = .ok next →
      property next → property state)
    (exact : ∀ state event next, invariant state → property state →
      step state event = .ok next → (property next ↔ condition state event))
    {events : List Event} (start : invariant state) (holds : property state)
    (success : run step state events = .ok final) :
    property final ↔ Along step condition state events :=
  run_along_iff_of invariant property keep lost
    (fun state event next kept held _ taken => exact state event next kept held taken) start holds
    (Along.of_forall (fun _ _ _ => trivial) state) success

/-- Steps under the condition go well, and any other step fails or ends where no step
leads back: then a run goes well exactly when all its steps meet the condition. -/
theorem run_iff_along {condition : State → Event → Prop} {good bad property : State → Prop}
    (advance : ∀ state event, good state → condition state event →
      ∃ next, step state event = .ok next ∧ good next)
    (fall : ∀ state event next, good state → ¬ condition state event →
      step state event = .ok next → bad next)
    (stuck : ∀ state event next, bad state → step state event = .ok next → bad next)
    (serves : ∀ state, good state → property state) (spoils : ∀ state, bad state → ¬ property state)
    {events : List Event} (start : good state) :
    (∃ final, run step state events = .ok final ∧ property final) ↔
      Along step condition state events := by
  constructor
  · intro ⟨final, success, holds⟩
    induction events generalizing state with
    | nil => trivial
    | cons event events ih =>
      obtain ⟨next, taken, rest⟩ := run_cons_ok.mp success
      have met : condition state event := by
        by_contra unmet
        have fallen := fall state event next start unmet taken
        have always : Along step (fun _ _ => True) next events :=
          Along.of_forall (fun _ _ _ => trivial) next
        have lost := run_invariant bad (fun _ _ _ low _ => stuck _ _ _ low) fallen always rest
        exact spoils final lost holds
      obtain ⟨other, same, kept⟩ := advance state event start met
      cases taken.symm.trans same
      refine ⟨met, fun other again => ?_⟩
      cases taken.symm.trans again
      exact ih kept rest
  · intro along
    obtain ⟨final, success, kept⟩ := run_succeeds good advance start along
    exact ⟨final, success, serves final kept⟩

/-- The run succeeds, and every state it comes through has the property. -/
def Throughout (step : State → Event → Except Stop State) (property : State → Prop)
    (state : State) (events : List Event) : Prop :=
  ∀ before, before <+: events → ∃ final, run step state before = .ok final ∧ property final

theorem throughout_nil {property : State → Prop} :
    Throughout step property state [] ↔ property state := by
  constructor
  · intro always
    obtain ⟨final, success, holds⟩ := always [] List.nil_prefix
    cases success
    exact holds
  · intro holds before start
    cases List.prefix_nil.mp start
    exact ⟨state, rfl, holds⟩

theorem throughout_cons {property : State → Prop} {event : Event} {events : List Event} :
    Throughout step property state (event :: events) ↔ property state ∧
      ∃ next, step state event = .ok next ∧ Throughout step property next events := by
  constructor
  · intro always
    obtain ⟨first, same, holds⟩ := always [] List.nil_prefix
    cases same
    obtain ⟨next, success, _⟩ := always [event] (List.prefix_append [event] events)
    obtain ⟨other, taken, _⟩ := run_cons_ok.mp success
    refine ⟨holds, other, taken, ?_⟩
    intro before start
    have longer := always (event :: before) (List.cons_prefix_cons.mpr ⟨rfl, start⟩)
    rwa [run_cons taken] at longer
  · intro ⟨holds, next, taken, rest⟩ before start
    cases before with
    | nil => exact ⟨state, rfl, holds⟩
    | cons first before =>
      obtain ⟨rfl, inner⟩ := List.cons_prefix_cons.mp start
      rw [run_cons taken]
      exact rest before inner

/-- A run whose steps go well under the condition keeps what a good state has. -/
theorem throughout_of_along {condition : State → Event → Prop} {property : State → Prop}
    (good : State → Prop)
    (advance : ∀ state event, good state → condition state event →
      ∃ next, step state event = .ok next ∧ good next)
    (serves : ∀ state, good state → property state)
    {events : List Event} (start : good state) (along : Along step condition state events) :
    Throughout step property state events := by
  induction events generalizing state with
  | nil => exact throughout_nil.mpr (serves state start)
  | cons event events ih =>
    obtain ⟨next, taken, kept⟩ := advance state event start along.1
    exact throughout_cons.mpr ⟨serves state start, next, taken, ih kept (along.2 next taken)⟩

/-- What a condition asks of the events alone it asks of all of them, when the steps go
well. -/
theorem Along.forall_events {condition : State → Event → Prop} {property : Event → Prop}
    (good : State → Prop)
    (advance : ∀ state event, good state → condition state event →
      ∃ next, step state event = .ok next ∧ good next)
    (shows : ∀ state event, good state → condition state event → property event)
    {events : List Event} (start : good state) (along : Along step condition state events) :
    ∀ event ∈ events, property event := by
  induction events generalizing state with
  | nil => simp
  | cons event events ih =>
    obtain ⟨next, taken, kept⟩ := advance state event start along.1
    have rest := ih kept (along.2 next taken)
    rw [List.forall_mem_cons]
    exact ⟨shows state event start along.1, rest⟩

/-- A condition that a run meets its beginning meets. -/
theorem Along.of_prefix {condition : State → Event → Prop} {before events : List Event}
    (along : Along step condition state events) (start : before <+: events) :
    Along step condition state before := by
  induction before generalizing state events with
  | nil => trivial
  | cons event before ih =>
    cases events with
    | nil => cases List.prefix_nil.mp start
    | cons other events =>
      obtain ⟨rfl, inner⟩ := List.cons_prefix_cons.mp start
      exact ⟨along.1, fun next taken => ih (along.2 next taken) inner⟩

/-- Two conditions that a run meets it meets together. -/
theorem Along.and {first second : State → Event → Prop} {events : List Event}
    (one : Along step first state events) (two : Along step second state events) :
    Along step (fun state event => first state event ∧ second state event) state events := by
  induction events generalizing state with
  | nil => trivial
  | cons event events ih =>
    exact ⟨⟨one.1, two.1⟩, fun next taken => ih (one.2 next taken) (two.2 next taken)⟩

/-- Given steps under the condition go well, and any other given step fails or loses the
property: then a run of given steps keeps the property exactly when all its steps meet the
condition. -/
theorem throughout_iff_along_of {given condition : State → Event → Prop}
    {good property : State → Prop}
    (advance : ∀ state event, good state → given state event → condition state event →
      ∃ next, step state event = .ok next ∧ good next)
    (fall : ∀ state event next, good state → given state event → ¬ condition state event →
      step state event = .ok next → ¬ property next)
    (serves : ∀ state, good state → property state)
    {events : List Event} (start : good state) (allowed : Along step given state events) :
    Throughout step property state events ↔ Along step condition state events := by
  constructor
  · intro always
    induction events generalizing state with
    | nil => trivial
    | cons event events ih =>
      obtain ⟨_, next, taken, rest⟩ := throughout_cons.mp always
      have met : condition state event := by
        by_contra unmet
        obtain ⟨same, success, holds⟩ := rest [] List.nil_prefix
        cases success
        exact fall state event next start allowed.1 unmet taken holds
      obtain ⟨other, same, kept⟩ := advance state event start allowed.1 met
      cases taken.symm.trans same
      refine ⟨met, fun other again => ?_⟩
      cases taken.symm.trans again
      exact ih kept (allowed.2 next taken) rest
  · intro along
    exact throughout_of_along good
      (fun state event held both => advance state event held both.1 both.2) serves start
      (allowed.and along)

/-- Steps under the condition go well, and any other step fails or loses the property: then
a run keeps the property exactly when all its steps meet the condition. -/
theorem throughout_iff_along {condition : State → Event → Prop} {good property : State → Prop}
    (advance : ∀ state event, good state → condition state event →
      ∃ next, step state event = .ok next ∧ good next)
    (fall : ∀ state event next, good state → ¬ condition state event →
      step state event = .ok next → ¬ property next)
    (serves : ∀ state, good state → property state)
    {events : List Event} (start : good state) :
    Throughout step property state events ↔ Along step condition state events :=
  throughout_iff_along_of (fun state event held _ met => advance state event held met)
    (fun state event next held _ unmet taken => fall state event next held unmet taken) serves start
    (Along.of_forall (fun _ _ _ => trivial) state)

/-- Every state that the run comes through, if it does not fail before, has the property. -/
def Always (step : State → Event → Except Stop State) (property : State → Prop)
    (state : State) (events : List Event) : Prop :=
  ∀ before final, before <+: events → run step state before = .ok final → property final

/-- Steps under the condition keep a state good when they go well, and any other step goes well
and loses the property: then a run keeps the property exactly when all its steps meet the
condition. -/
theorem always_iff_along {condition : State → Event → Prop} {good property : State → Prop}
    (advance : ∀ state event next, good state → condition state event →
      step state event = .ok next → good next)
    (fall : ∀ state event, good state → ¬ condition state event →
      ∃ next, step state event = .ok next ∧ ¬ property next)
    (serves : ∀ state, good state → property state)
    {events : List Event} (start : good state) :
    Always step property state events ↔ Along step condition state events := by
  constructor
  · intro always
    induction events generalizing state with
    | nil => trivial
    | cons event events ih =>
      have met : condition state event := by
        by_contra unmet
        obtain ⟨next, taken, lost⟩ := fall state event start unmet
        have short : [event] <+: event :: events := List.prefix_append [event] events
        exact lost (always [event] next short (run_cons taken []))
      refine ⟨met, fun next taken => ?_⟩
      apply ih (advance state event next start met taken)
      intro before final within success
      apply always (event :: before) final (List.cons_prefix_cons.mpr ⟨rfl, within⟩)
      rwa [run_cons taken]
  · intro along before final within success
    exact serves final (run_invariant good advance start (along.of_prefix within) success)

/-- Every entry of the trace is allowed after the entries before it. -/
def Orderly (allowed : List Event → Event → Prop) (trace : List Event) : Prop :=
  ∀ before entry, before ++ [entry] <+: trace → allowed before entry

namespace Orderly

variable {allowed : List Event → Event → Prop} {trace more : List Event}

theorem nil : Orderly allowed [] := by
  intro before entry start
  have empty := List.prefix_nil.mp start
  simp at empty

theorem allowed_of {before after : List Event} {entry : Event} (orderly : Orderly allowed trace)
    (shape : trace = before ++ entry :: after) : allowed before entry :=
  orderly before entry ⟨after, by rw [shape, List.append_assoc, List.singleton_append]⟩

theorem of_prefix {start : List Event} (orderly : Orderly allowed trace)
    (front : start <+: trace) : Orderly allowed start :=
  fun before entry within => orderly before entry (within.trans front)

theorem concat {entry : Event} (orderly : Orderly allowed trace) (last : allowed trace entry) :
    Orderly allowed (trace ++ [entry]) := by
  intro before other start
  rcases List.prefix_concat_iff.mp start with whole | earlier
  · obtain ⟨same, equal⟩ := List.append_inj' whole rfl
    cases equal
    exact same ▸ last
  · exact orderly before other earlier

theorem pair {first second : Event} (orderly : Orderly allowed trace) (early : allowed trace first)
    (late : allowed (trace ++ [first]) second) : Orderly allowed (trace ++ [first, second]) := by
  rw [List.append_cons]
  exact (orderly.concat early).concat late

/-- Entries that are allowed where they come to stand can be added. -/
theorem append (orderly : Orderly allowed trace)
    (fits : ∀ before entry, before ++ [entry] <+: more → allowed (trace ++ before) entry) :
    Orderly allowed (trace ++ more) := by
  induction more generalizing trace with
  | nil =>
    rw [List.append_nil]
    exact orderly
  | cons entry more ih =>
    have here := fits [] entry (List.prefix_append [entry] more)
    rw [List.append_nil] at here
    have rest := ih (orderly.concat here) (by
      intro before other start
      have later := fits (entry :: before) other (List.cons_prefix_cons.mpr ⟨rfl, start⟩)
      rwa [List.append_cons] at later)
    rwa [List.append_assoc] at rest

theorem append_free (orderly : Orderly allowed trace)
    (free : ∀ entry ∈ more, ∀ before, allowed before entry) : Orderly allowed (trace ++ more) := by
  apply orderly.append
  intro before entry start
  exact free entry (start.subset (List.mem_append_right _ (List.mem_singleton_self entry))) _

end Orderly

end Yolanda.Foundation
