import Yolanda.App.RegistryStep
import Yolanda.App.SharedLoop

/-! What holds between any two steps of the threads of a loop: who has the mutex, what the
flag and the pointers tell, and where each operation is on its way to the tables. -/

namespace Yolanda.App

open Foundation

namespace Place

/-- The places in `handle_pending_channel`. -/
def handles : Place → Bool
  | .handling | .begun | .walking _ | .walked => true
  | _ => false

/-- The places where the flag is up. -/
def walks : Place → Bool
  | .walking _ => true
  | _ => false

/-- The places where the pointers do not tell what is left to do. -/
def drains : Place → Bool
  | .walking _ | .walked => true
  | _ => false

/-- The places from which the list will be handled or the loop woken up. -/
def serves : Place → Bool
  | .appended | .unlocked | .handling | .begun | .walking _ | .walked => true
  | _ => false

/-- The operation a thread has the mutex for and has not appended yet. -/
def waiting : Place → List (ChannelElement Nat)
  | .locked operation | .asserted operation => [operation.element]
  | _ => []

end Place

/-- The places of the threads that hold the mutex are those of its owner. -/
def Exclusive (places : Nat → Place) (mutex : Option Nat) : Prop :=
  ∀ thread, (places thread).holds = true ↔ mutex = some thread

namespace Exclusive

variable {places : Nat → Place} {mutex : Option Nat} {thread : Nat} {place : Place}

theorem move (exclusive : Exclusive places mutex)
    (same : place.holds = (places thread).holds) :
    Exclusive (Function.update places thread place) mutex := by
  intro other
  by_cases here : other = thread
  · subst other
    rw [Function.update_self, same]
    exact exclusive thread
  · rw [Function.update_of_ne here]
    exact exclusive other

theorem take (exclusive : Exclusive places none) (holds : place.holds = true) :
    Exclusive (Function.update places thread place) (some thread) := by
  intro other
  by_cases here : other = thread
  · subst other
    rw [Function.update_self, holds]
    simp
  · rw [Function.update_of_ne here]
    constructor
    · intro held
      cases (exclusive other).mp held
    · intro same
      exact absurd (Option.some.inj same).symm here

theorem release (exclusive : Exclusive places (some thread)) (free : place.holds = false) :
    Exclusive (Function.update places thread place) none := by
  intro other
  by_cases here : other = thread
  · subst other
    rw [Function.update_self, free]
    simp
  · rw [Function.update_of_ne here]
    constructor
    · intro held
      exact absurd (Option.some.inj ((exclusive other).mp held)).symm here
    · intro same
      cases same

end Exclusive

namespace SharedLoop

/-- The operation that is in its call between the mutex and the list. -/
def held (loop : SharedLoop) : List (ChannelElement Nat) :=
  match loop.mutex with
  | some thread => (loop.places thread).waiting
  | none => []

/-- The operations handed to `handle_pending_add`, `_remove` or `_update`. -/
def applied (loop : SharedLoop) : List (ChannelElement Nat) :=
  loop.registry.handled.map Prod.fst

/-- Where the operations not yet applied are to be found: behind the cursor of the drain,
nowhere at its end, and otherwise in the list the pointers describe. -/
def Pointed (loop : SharedLoop) (remaining : List (ChannelElement Nat)) : Prop :=
  match loop.places loop.owner with
  | .walking cursor => ∃ addresses, Links loop.pending.heap cursor addresses remaining
  | .walked => remaining = [] ∧ loop.pending.Describes remaining
  | _ => loop.pending.Describes remaining

/-- A byte for the loop is on its way or read, or a thread is where it will handle the
list or send a byte. -/
def WillHandle (loop : SharedLoop) : Prop :=
  0 < loop.wakeups ∨ loop.woken = true ∨ ∃ thread, (loop.places thread).serves = true

/-- What holds between any two steps of the threads, for the operations not yet applied. -/
structure Invariant (loop : SharedLoop) (remaining : List (ChannelElement Nat)) : Prop where
  exclusive : Exclusive loop.places loop.mutex
  owned : ∀ thread, (loop.places thread).handles = true → thread = loop.owner
  flagged : loop.isHandlePending = (loop.places loop.owner).walks
  pointed : loop.Pointed remaining
  ordered : loop.asked = loop.applied ++ remaining ++ loop.held
  heard : remaining ≠ [] → loop.WillHandle
  called : ∀ thread operation, loop.places thread = .entering operation →
    loop.registry.fdOf operation.element.channel ≠ none
  kinds : ∀ element ∈ loop.asked, loop.registry.fdOf element.channel ≠ none ∧
    (element.type = 1 ∨ element.type = 2 ∨ element.type = 3)
  mapped : loop.registry.Mapped

variable {loop next : SharedLoop} {remaining : List (ChannelElement Nat)} {thread : Nat}
  {place : Place}

theorem start_invariant (owner : Nat) (opened : Int → Bool) :
    (start owner opened).Invariant [] := by
  constructor
  · intro thread
    exact ⟨nofun, nofun⟩
  · intro thread handles
    cases handles
  · rfl
  · exact LinkedQueue.empty_describes
  · rfl
  · intro pending
    exact absurd rfl pending
  · intro thread operation here
    cases here
  · intro element member
    cases member
  · intro fd number found
    cases found

@[simp] theorem places_move (loop : SharedLoop) (thread : Nat) (place : Place) :
    (loop.move thread place).places thread = place :=
  Function.update_self ..

private theorem held_move (same : place.waiting = (loop.places thread).waiting) :
    (loop.move thread place).held = loop.held := by
  unfold held SharedLoop.move
  cases loop.mutex with
  | none => rfl
  | some holder =>
    by_cases here : holder = thread
    · subst holder
      simp only [Function.update_self]
      exact same
    · simp only [Function.update_of_ne here]

private theorem pointed_of_describes (describes : loop.pending.Describes remaining)
    (calm : (loop.places loop.owner).drains = false) : loop.Pointed remaining := by
  unfold Pointed
  cases here : loop.places loop.owner with
  | walking cursor =>
    rw [here] at calm
    cases calm
  | walked =>
    rw [here] at calm
    cases calm
  | _ => exact describes

theorem Pointed.describes (pointed : loop.Pointed remaining)
    (calm : (loop.places loop.owner).drains = false) : loop.pending.Describes remaining := by
  unfold Pointed at pointed
  cases here : loop.places loop.owner with
  | walking cursor =>
    rw [here] at calm
    cases calm
  | walked =>
    rw [here] at calm
    cases calm
  | _ =>
    rw [here] at pointed
    exact pointed

/-- A thread outside the drain can move about without touching what the drain left. -/
theorem Pointed.move (pointed : loop.Pointed remaining)
    (before : (loop.places thread).drains = false) (after : place.drains = false) :
    (loop.move thread place).Pointed remaining := by
  by_cases here : loop.owner = thread
  · subst thread
    have describes : (loop.move loop.owner place).pending.Describes remaining :=
      pointed.describes before
    apply pointed_of_describes describes
    change (Function.update loop.places loop.owner place loop.owner).drains = false
    rw [Function.update_self]
    exact after
  · unfold Pointed SharedLoop.move
    simp only [Function.update_of_ne here]
    exact pointed

private theorem willHandle_of_serves (serves : place.serves = true) :
    (loop.move thread place).WillHandle := by
  refine .inr (.inr ⟨thread, ?_⟩)
  change (Function.update loop.places thread place thread).serves = true
  rw [Function.update_self]
  exact serves

theorem WillHandle.move (will : loop.WillHandle)
    (stays : (loop.places thread).serves = true → place.serves = true) :
    (loop.move thread place).WillHandle := by
  rcases will with bytes | woken | ⟨other, serves⟩
  · exact .inl bytes
  · exact .inr (.inl woken)
  · by_cases here : other = thread
    · subst other
      exact willHandle_of_serves (stays serves)
    · refine .inr (.inr ⟨other, ?_⟩)
      change (Function.update loop.places thread place other).serves = true
      rw [Function.update_of_ne here]
      exact serves

/-- What a step of a thread needs to keep when it leaves the mutex and the list alone. -/
structure Plain (loop : SharedLoop) (thread : Nat) (place : Place) : Prop where
  holds : place.holds = (loop.places thread).holds
  handles : place.handles = true → thread = loop.owner
  before : (loop.places thread).drains = false
  after : place.drains = false
  waiting : place.waiting = (loop.places thread).waiting
  called : ∀ operation, place = .entering operation →
    loop.registry.fdOf operation.element.channel ≠ none

theorem Plain.of_eq {before : Place} (here : loop.places thread = before)
    (holds : place.holds = before.holds) (handles : place.handles = true → thread = loop.owner)
    (calm : before.drains = false) (after : place.drains = false)
    (waiting : place.waiting = before.waiting)
    (called : ∀ operation, place = .entering operation →
      loop.registry.fdOf operation.element.channel ≠ none) : Plain loop thread place := by
  subst before
  exact ⟨holds, handles, calm, after, waiting, called⟩

private theorem walks_of_drains (calm : place.drains = false) : place.walks = false := by
  cases place with
  | walking cursor => cases calm
  | _ => rfl

private theorem owned_move (owned : ∀ other, (loop.places other).handles = true → other = loop.owner)
    (handles : place.handles = true → thread = loop.owner) :
    ∀ other, ((loop.move thread place).places other).handles = true → other = loop.owner := by
  intro other
  by_cases here : other = thread
  · subst other
    intro served
    apply handles
    simpa [move] using served
  · intro served
    apply owned other
    simpa [move, here] using served

private theorem called_move
    (called : ∀ other operation, loop.places other = .entering operation →
      loop.registry.fdOf operation.element.channel ≠ none)
    (new : ∀ operation, place = .entering operation →
      loop.registry.fdOf operation.element.channel ≠ none) :
    ∀ other operation, (loop.move thread place).places other = .entering operation →
      loop.registry.fdOf operation.element.channel ≠ none := by
  intro other operation
  by_cases here : other = thread
  · subst other
    intro there
    apply new
    simpa [move] using there
  · intro there
    apply called other
    simpa [move, here] using there

private theorem flagged_move (flagged : loop.isHandlePending = (loop.places loop.owner).walks)
    (same : thread = loop.owner → place.walks = (loop.places thread).walks) :
    loop.isHandlePending = ((loop.move thread place).places loop.owner).walks := by
  rw [flagged]
  by_cases here : loop.owner = thread
  · have equal := same here.symm
    subst thread
    simp [move, equal]
  · simp [move, here]

/-- A thread that does not walk before and after leaves the flag as it is. -/
private theorem flagged_calm (flagged : loop.isHandlePending = (loop.places loop.owner).walks)
    (before : (loop.places thread).drains = false) (after : place.drains = false) :
    loop.isHandlePending = ((loop.move thread place).places loop.owner).walks := by
  apply flagged_move flagged
  intro _
  rw [walks_of_drains after, walks_of_drains before]

theorem Invariant.move (invariant : loop.Invariant remaining) (plain : Plain loop thread place)
    (heard : remaining ≠ [] → (loop.move thread place).WillHandle) :
    (loop.move thread place).Invariant remaining := by
  constructor
  · exact invariant.exclusive.move plain.holds
  · exact owned_move invariant.owned plain.handles
  · exact flagged_calm invariant.flagged plain.before plain.after
  · exact invariant.pointed.move plain.before plain.after
  · rw [held_move plain.waiting]
    exact invariant.ordered
  · exact heard
  · exact called_move invariant.called plain.called
  · exact invariant.kinds
  · exact invariant.mapped

/-- A thread that holds the mutex and is not in the drain leaves the drain to no one. -/
theorem Invariant.calm_of_holds (invariant : loop.Invariant remaining)
    (holds : (loop.places thread).holds = true) (before : (loop.places thread).drains = false) :
    (loop.places loop.owner).drains = false := by
  cases drains : (loop.places loop.owner).drains with
  | false => rfl
  | true =>
    have also : (loop.places loop.owner).holds = true := by
      cases here : loop.places loop.owner with
      | walking cursor => rfl
      | walked => rfl
      | _ =>
        rw [here] at drains
        cases drains
    have mine := (invariant.exclusive thread).mp holds
    have its := (invariant.exclusive loop.owner).mp also
    have same : thread = loop.owner := Option.some.inj (mine.symm.trans its)
    rw [same, drains] at before
    cases before

/-- A call takes the mutex. -/
theorem Invariant.lock (invariant : loop.Invariant remaining) (free : loop.mutex = none)
    {operation : Operation} (here : loop.places thread = .entering operation) :
    ({ loop with
      mutex := some thread
      asked := loop.asked ++ [operation.element] }.move thread (.locked operation)).Invariant
        remaining := by
  have exclusive := invariant.exclusive
  rw [free] at exclusive
  have calm : (loop.places thread).drains = false := by
    rw [here]
    rfl
  constructor
  · exact exclusive.take rfl
  · exact owned_move invariant.owned nofun
  · exact flagged_calm invariant.flagged calm rfl
  · exact invariant.pointed.move calm rfl
  · have before : loop.held = [] := by
      unfold held
      rw [free]
    have order := invariant.ordered
    rw [before, List.append_nil] at order
    change loop.asked ++ [operation.element] = loop.applied ++ remaining ++ held _
    rw [order]
    unfold held SharedLoop.move
    simp [Place.waiting]
  · intro pending
    exact (invariant.heard pending).move (by rw [here]; nofun)
  · exact called_move invariant.called nofun
  · intro element member
    rcases List.mem_append.mp member with early | new
    · exact invariant.kinds element early
    · rw [List.mem_singleton.mp new]
      refine ⟨invariant.called thread operation here, ?_⟩
      cases operation with
      | add channel => exact .inl rfl
      | remove channel => exact .inr (.inl rfl)
      | update channel => exact .inr (.inr rfl)
  · exact invariant.mapped

/-- The assertion of `do_channel_event` holds. -/
theorem Invariant.assertion (invariant : loop.Invariant remaining)
    {operation : Operation} (here : loop.places thread = .locked operation) :
    loop.isHandlePending = false := by
  have holds : (loop.places thread).holds = true := by
    rw [here]
    rfl
  have calm := invariant.calm_of_holds holds (by rw [here]; rfl)
  rw [invariant.flagged]
  exact walks_of_drains calm

/-- A call appends its operation. -/
theorem Invariant.append (invariant : loop.Invariant remaining)
    {operation : Operation} (here : loop.places thread = .asserted operation) :
    ∃ pending, loop.pending.push operation.element = some pending ∧
      ({ loop with pending }.move thread .appended).Invariant
        (remaining ++ [operation.element]) := by
  have holds : (loop.places thread).holds = true := by
    rw [here]
    rfl
  have calm : (loop.places thread).drains = false := by
    rw [here]
    rfl
  have quiet := invariant.calm_of_holds holds calm
  obtain ⟨pending, pushed, described⟩ :=
    (invariant.pointed.describes quiet).push operation.element
  refine ⟨pending, pushed, ?_⟩
  constructor
  · apply invariant.exclusive.move
    rw [here]
    rfl
  · exact owned_move invariant.owned nofun
  · exact flagged_calm invariant.flagged calm rfl
  · have stored : Pointed { loop with pending } (remaining ++ [operation.element]) :=
      pointed_of_describes described quiet
    exact stored.move calm rfl
  · have mine := (invariant.exclusive thread).mp holds
    have before : loop.held = [operation.element] := by
      unfold held
      rw [mine]
      simp only [here]
      rfl
    have after : held ({ loop with pending }.move thread .appended) = [] := by
      unfold held SharedLoop.move
      simp only [mine, Function.update_self]
      rfl
    have order := invariant.ordered
    rw [before] at order
    rw [after, List.append_nil, ← List.append_assoc]
    exact order
  · intro _
    exact willHandle_of_serves rfl
  · exact called_move invariant.called nofun
  · exact invariant.kinds
  · exact invariant.mapped

/-- A call releases the mutex. -/
theorem Invariant.unlock (invariant : loop.Invariant remaining)
    (here : loop.places thread = .appended) :
    ({ loop with mutex := none }.move thread .unlocked).Invariant remaining := by
  have holds : (loop.places thread).holds = true := by
    rw [here]
    rfl
  have calm : (loop.places thread).drains = false := by
    rw [here]
    rfl
  have mine := (invariant.exclusive thread).mp holds
  have exclusive := invariant.exclusive
  rw [mine] at exclusive
  constructor
  · exact exclusive.release rfl
  · exact owned_move invariant.owned nofun
  · exact flagged_calm invariant.flagged calm rfl
  · exact invariant.pointed.move calm rfl
  · have before : loop.held = [] := by
      unfold held
      rw [mine]
      simp only [here]
      rfl
    have order := invariant.ordered
    rw [before] at order
    exact order
  · intro _
    exact willHandle_of_serves rfl
  · exact called_move invariant.called nofun
  · exact invariant.kinds
  · exact invariant.mapped

/-- The thread of the loop takes the mutex to handle the list. -/
theorem Invariant.begin (invariant : loop.Invariant remaining) (free : loop.mutex = none)
    (here : loop.places thread = .handling) :
    ({ loop with mutex := some thread, woken := false }.move thread .begun).Invariant
      remaining := by
  have exclusive := invariant.exclusive
  rw [free] at exclusive
  have calm : (loop.places thread).drains = false := by
    rw [here]
    rfl
  have mine : thread = loop.owner := invariant.owned thread (by rw [here]; rfl)
  constructor
  · exact exclusive.take rfl
  · exact owned_move invariant.owned fun _ => mine
  · exact flagged_calm invariant.flagged calm rfl
  · exact invariant.pointed.move calm rfl
  · have before : loop.held = [] := by
      unfold held
      rw [free]
    have after : held ({ loop with mutex := some thread, woken := false }.move thread .begun) =
        [] := by
      unfold held SharedLoop.move
      simp only [Function.update_self]
      rfl
    have order := invariant.ordered
    rw [before] at order
    rw [after]
    exact order
  · intro _
    exact willHandle_of_serves rfl
  · exact called_move invariant.called nofun
  · exact invariant.kinds
  · exact invariant.mapped

/-- The flag goes up, and the loop over the list starts at its head. -/
theorem Invariant.walk (invariant : loop.Invariant remaining)
    (here : loop.places thread = .begun) :
    ({ loop with isHandlePending := true }.move thread
      (.walking loop.pending.head)).Invariant remaining := by
  have mine : thread = loop.owner := invariant.owned thread (by rw [here]; rfl)
  subst thread
  have holds : (loop.places loop.owner).holds = true := by
    rw [here]
    rfl
  obtain ⟨addresses, links, _⟩ := invariant.pointed.describes (by rw [here]; rfl)
  constructor
  · apply invariant.exclusive.move
    rw [here]
    rfl
  · exact owned_move invariant.owned fun _ => rfl
  · simp [SharedLoop.move, Place.walks]
  · unfold Pointed SharedLoop.move
    simp only [Function.update_self]
    exact ⟨addresses, links⟩
  · rw [held_move (by rw [here]; rfl)]
    exact invariant.ordered
  · intro _
    exact willHandle_of_serves rfl
  · exact called_move invariant.called nofun
  · exact invariant.kinds
  · exact invariant.mapped

/-- At a cursor the drain finds the first operation not yet applied. -/
theorem Invariant.cursor (invariant : loop.Invariant remaining) {address : Nat}
    (here : loop.places thread = .walking (some address)) :
    ∃ node rest addresses, loop.pending.heap[address]? = some node ∧
      remaining = node.value :: rest ∧ Links loop.pending.heap node.next addresses rest := by
  have mine : thread = loop.owner := invariant.owned thread (by rw [here]; rfl)
  subst thread
  have pointed := invariant.pointed
  unfold Pointed at pointed
  simp only [here] at pointed
  obtain ⟨addresses, links⟩ := pointed
  cases links with
  | cons place rest => exact ⟨_, _, _, place, rfl, rest⟩

/-- An operation of the list has a channel and one of the three types. -/
theorem Invariant.known (invariant : loop.Invariant remaining) :
    ∀ element ∈ remaining, loop.registry.fdOf element.channel ≠ none ∧
      (element.type = 1 ∨ element.type = 2 ∨ element.type = 3) := by
  intro element member
  apply invariant.kinds
  rw [invariant.ordered]
  exact List.mem_append_left _ (List.mem_append_right _ member)

/-- The drain applies the operation at its cursor and goes on to the next. -/
theorem Invariant.apply (invariant : loop.Invariant remaining) {address : Nat}
    (here : loop.places thread = .walking (some address)) {node : Node (ChannelElement Nat)}
    (place : loop.pending.heap[address]? = some node) {registry : Registry}
    (success : loop.registry.handlePending node.value = .ok registry) :
    ∃ rest, remaining = node.value :: rest ∧
      ({ loop with registry }.move thread (.walking node.next)).Invariant rest := by
  obtain ⟨found, rest, addresses, same, split, links⟩ := invariant.cursor here
  cases place.symm.trans same
  refine ⟨rest, split, ?_⟩
  have mine : thread = loop.owner := invariant.owned thread (by rw [here]; rfl)
  subst thread
  have kind := (invariant.known node.value (by rw [split]; exact List.mem_cons_self ..)).2
  obtain ⟨channel, known, applied⟩ := Registry.handlePending_applied success
  have names := Registry.fdOf_congr applied.channels
  constructor
  · apply invariant.exclusive.move
    rw [here]
    rfl
  · exact owned_move invariant.owned fun _ => rfl
  · have flagged := invariant.flagged
    rw [here] at flagged
    simp only [SharedLoop.move, Function.update_self]
    exact flagged
  · unfold Pointed SharedLoop.move
    simp only [Function.update_self]
    exact ⟨addresses, links⟩
  · have order := invariant.ordered
    have same : held ({ loop with registry }.move loop.owner (.walking node.next)) = loop.held :=
      held_move (by rw [here]; rfl)
    have logged : ({ loop with registry }.move loop.owner (.walking node.next)).applied =
        loop.applied ++ [node.value] := applied.handled kind
    rw [split] at order
    rw [same, logged, List.append_assoc loop.applied]
    exact order
  · intro _
    exact willHandle_of_serves rfl
  · have new : ∀ operation, Place.walking node.next = .entering operation →
        loop.registry.fdOf operation.element.channel ≠ none := nofun
    intro other operation there
    change registry.fdOf operation.element.channel ≠ none
    rw [names]
    exact called_move invariant.called new other operation there
  · intro element member
    change registry.fdOf element.channel ≠ none ∧ _
    rw [names]
    exact invariant.kinds element member
  · exact applied.mapped known invariant.mapped

/-- At the end of the list nothing is left, and the pointers are reset. -/
theorem Invariant.finish (invariant : loop.Invariant remaining)
    (here : loop.places thread = .walking none) :
    remaining = [] ∧ ({ loop with
      isHandlePending := false
      pending := loop.pending.reset }.move thread .walked).Invariant [] := by
  have mine : thread = loop.owner := invariant.owned thread (by rw [here]; rfl)
  subst thread
  have pointed := invariant.pointed
  unfold Pointed at pointed
  simp only [here] at pointed
  obtain ⟨addresses, links⟩ := pointed
  have empty := links.eq_nil_iff.mpr rfl
  subst empty
  refine ⟨rfl, ?_⟩
  constructor
  · apply invariant.exclusive.move
    rw [here]
    rfl
  · exact owned_move invariant.owned fun _ => rfl
  · simp [SharedLoop.move, Place.walks]
  · unfold Pointed SharedLoop.move
    simp only [Function.update_self]
    exact ⟨trivial, loop.pending.reset_describes⟩
  · have same : held ({ loop with
        isHandlePending := false
        pending := loop.pending.reset }.move loop.owner .walked) = loop.held :=
      held_move (by rw [here]; rfl)
    rw [same]
    exact invariant.ordered
  · intro pending
    exact absurd rfl pending
  · exact called_move invariant.called nofun
  · exact invariant.kinds
  · exact invariant.mapped

/-- The thread of the loop releases the mutex. -/
theorem Invariant.leave (invariant : loop.Invariant remaining)
    (here : loop.places thread = .walked) :
    ({ loop with mutex := none }.move thread .outside).Invariant remaining := by
  have mine : thread = loop.owner := invariant.owned thread (by rw [here]; rfl)
  subst thread
  have holds : (loop.places loop.owner).holds = true := by
    rw [here]
    rfl
  have taken := (invariant.exclusive loop.owner).mp holds
  have exclusive := invariant.exclusive
  rw [taken] at exclusive
  have pointed := invariant.pointed
  unfold Pointed at pointed
  simp only [here] at pointed
  obtain ⟨empty, described⟩ := pointed
  constructor
  · exact exclusive.release rfl
  · exact owned_move invariant.owned fun _ => rfl
  · apply flagged_move invariant.flagged
    intro _
    rw [here]
    rfl
  · unfold Pointed SharedLoop.move
    simp only [Function.update_self]
    exact described
  · have before : loop.held = [] := by
      unfold held
      rw [taken]
      simp only [here]
      rfl
    have order := invariant.ordered
    rw [before] at order
    exact order
  · intro pending
    exact absurd empty pending
  · exact called_move invariant.called nofun
  · exact invariant.kinds
  · exact invariant.mapped

/-- Channels and descriptors that change elsewhere leave the order alone. -/
theorem Invariant.environment (invariant : loop.Invariant remaining) {registry : Registry}
    (names : ∀ number, loop.registry.fdOf number ≠ none → registry.fdOf number ≠ none)
    (channelMap : registry.channelMap = loop.registry.channelMap)
    (handled : registry.handled = loop.registry.handled) :
    ({ loop with registry } : SharedLoop).Invariant remaining := by
  have order := invariant.ordered
  unfold applied at order
  rw [← handled] at order
  refine ⟨invariant.exclusive, invariant.owned, invariant.flagged, invariant.pointed, order,
    invariant.heard, ?_, ?_, ?_⟩
  · intro other operation there
    exact names _ (invariant.called other operation there)
  · intro element member
    obtain ⟨known, kind⟩ := invariant.kinds element member
    exact ⟨names _ known, kind⟩
  · intro fd number found
    rw [channelMap] at found
    obtain ⟨channel, place⟩ := invariant.mapped fd number found
    exact Registry.fdOf_ne_none.mp (names _ (Registry.fdOf_ne_none.mpr ⟨channel, place⟩))

/-- After the append the thread handles the list itself, or wakes the loop up. -/
theorem Invariant.serve (invariant : loop.Invariant remaining)
    (here : loop.places thread = .unlocked) (success : loop.advance thread = .ok next) :
    next.Invariant remaining := by
  unfold advance at success
  simp only [here] at success
  by_cases own : thread = loop.owner
  · rw [if_pos own] at success
    cases success
    exact invariant.move (.of_eq here rfl (fun _ => own) rfl rfl rfl nofun)
      fun _ => willHandle_of_serves rfl
  · rw [if_neg own] at success
    cases success
    have waking : Invariant { loop with wakeups := loop.wakeups + 1 } remaining :=
      ⟨invariant.exclusive, invariant.owned, invariant.flagged, invariant.pointed,
        invariant.ordered, fun _ => .inl (Nat.succ_pos _), invariant.called, invariant.kinds,
        invariant.mapped⟩
    exact waking.move (.of_eq here rfl nofun rfl rfl rfl nofun) fun _ => .inl (Nat.succ_pos _)

/-- A step of a thread keeps the order, and only `epoll_ctl` can stop it. -/
theorem Invariant.advance (invariant : loop.Invariant remaining) (thread : Nat) :
    (∃ next rest, loop.advance thread = .ok next ∧ next.Invariant rest) ∨
      loop.advance thread = .error .epollCtl := by
  cases here : loop.places thread with
  | outside => exact .inl ⟨loop, remaining, by simp only [SharedLoop.advance, here], invariant⟩
  | entering operation =>
    cases free : loop.mutex with
    | some holder =>
      exact .inl ⟨loop, remaining, by simp only [SharedLoop.advance, here, free], invariant⟩
    | none =>
      exact .inl ⟨_, remaining, by simp only [SharedLoop.advance, here, free],
        invariant.lock free here⟩
  | locked operation =>
    have down := invariant.assertion here
    have moved : loop.advance thread = .ok (loop.move thread (.asserted operation)) := by
      simp only [SharedLoop.advance, here, down, Bool.false_eq_true, ↓reduceIte]
    refine .inl ⟨_, remaining, moved, ?_⟩
    exact invariant.move (.of_eq here rfl nofun rfl rfl rfl nofun) fun pending =>
      (invariant.heard pending).move (by rw [here]; nofun)
  | asserted operation =>
    obtain ⟨pending, pushed, kept⟩ := invariant.append here
    exact .inl ⟨_, _, by simp only [SharedLoop.advance, here, pushed], kept⟩
  | appended =>
    exact .inl ⟨_, remaining, by simp only [SharedLoop.advance, here], invariant.unlock here⟩
  | unlocked =>
    have moved : ∃ next, loop.advance thread = .ok next := by
      unfold SharedLoop.advance
      simp only [here]
      split
      · exact ⟨_, rfl⟩
      · exact ⟨_, rfl⟩
    obtain ⟨next, success⟩ := moved
    exact .inl ⟨next, remaining, success, invariant.serve here success⟩
  | handling =>
    cases free : loop.mutex with
    | some holder =>
      exact .inl ⟨loop, remaining, by simp only [SharedLoop.advance, here, free], invariant⟩
    | none =>
      exact .inl ⟨_, remaining, by simp only [SharedLoop.advance, here, free],
        invariant.begin free here⟩
  | begun =>
    exact .inl ⟨_, remaining, by simp only [SharedLoop.advance, here], invariant.walk here⟩
  | walking cursor =>
    cases cursor with
    | none =>
      exact .inl ⟨_, [], by simp only [SharedLoop.advance, here], (invariant.finish here).2⟩
    | some address =>
      obtain ⟨node, rest, addresses, place, split, _⟩ := invariant.cursor here
      cases handled : loop.registry.handlePending node.value with
      | ok registry =>
        obtain ⟨others, _, kept⟩ := invariant.apply here place handled
        exact .inl ⟨_, others, by simp only [SharedLoop.advance, here, place, handled]; rfl, kept⟩
      | error fault =>
        have member : node.value ∈ remaining := by
          rw [split]
          exact List.mem_cons_self ..
        obtain ⟨channel, known⟩ := Registry.fdOf_ne_none.mp (invariant.known node.value member).1
        have cause := Registry.handlePending_fault invariant.mapped known handled
        subst cause
        exact .inr (by simp only [SharedLoop.advance, here, place, handled]; rfl)
  | walked =>
    exact .inl ⟨_, remaining, by simp only [SharedLoop.advance, here], invariant.leave here⟩

theorem threadStep_invariant (invariant : loop.Invariant remaining) (event : ThreadEvent) :
    (∃ next rest, threadStep loop event = .ok next ∧ next.Invariant rest) ∨
      threadStep loop event = .error .epollCtl := by
  cases event with
  | advance thread => exact invariant.advance thread
  | call thread operation =>
    left
    by_cases possible : loop.places thread = .outside ∧
        (loop.registry.fdOf operation.element.channel).isSome
    · obtain ⟨here, known⟩ := possible
      refine ⟨_, remaining, if_pos ⟨here, known⟩, ?_⟩
      refine invariant.move (.of_eq here rfl nofun rfl rfl rfl ?_) fun pending =>
        (invariant.heard pending).move (by rw [here]; nofun)
      intro other same
      cases same
      exact Option.isSome_iff_ne_none.mp known
    · exact ⟨loop, remaining, if_neg possible, invariant⟩
  | handle =>
    left
    by_cases here : loop.places loop.owner = .outside
    · refine ⟨_, remaining, if_pos here, ?_⟩
      exact invariant.move (.of_eq here rfl (fun _ => rfl) rfl rfl rfl nofun)
        fun _ => willHandle_of_serves rfl
    · exact ⟨loop, remaining, if_neg here, invariant⟩
  | wake =>
    left
    by_cases possible : loop.places loop.owner = .outside ∧ 0 < loop.wakeups
    · refine ⟨_, remaining, if_pos possible, ?_⟩
      exact ⟨invariant.exclusive, invariant.owned, invariant.flagged, invariant.pointed,
        invariant.ordered, fun _ => .inr (.inl rfl), invariant.called, invariant.kinds,
        invariant.mapped⟩
    · exact ⟨loop, remaining, if_neg possible, invariant⟩
  | build channel =>
    left
    refine ⟨_, remaining, rfl, invariant.environment ?_ rfl rfl⟩
    intro number known
    obtain ⟨found, place⟩ := Registry.fdOf_ne_none.mp known
    have inside := (List.getElem?_eq_some_iff.mp place).1
    exact Registry.fdOf_ne_none.mpr ⟨found, (List.getElem?_append_left inside).trans place⟩
  | retune channel events =>
    left
    refine ⟨_, remaining, rfl, invariant.environment ?_ rfl rfl⟩
    intro number known
    obtain ⟨found, place⟩ := Registry.fdOf_ne_none.mp known
    apply Registry.fdOf_ne_none.mpr
    rw [List.getElem?_modify, place]
    exact ⟨_, rfl⟩
  | kernel kernel =>
    left
    exact ⟨_, remaining, rfl, invariant.environment (fun _ known => known) rfl rfl⟩

end SharedLoop

end Yolanda.App
