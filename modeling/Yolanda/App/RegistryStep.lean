import Yolanda.App.EventLoop

/-! What an operation of the pending list does to the tables of its loop, when the
process survives it. -/

namespace Yolanda.App

namespace EventDispatcher

variable {kernel next : Kernel} {channel : Channel}

/-- What a call that succeeds leaves the epoll instance with for the descriptor. -/
def leaves (control : EpollControl) (events : BitVec 32) : Option (BitVec 32) :=
  match control with
  | .del => none
  | _ => some events

/-- A call returns for an open descriptor that is there exactly when it should be. -/
theorem control_ok {operation : EpollControl} : control kernel operation channel = .ok next ↔
    kernel.opened channel.fd = true ∧
      (kernel.registered channel.fd = none ↔ operation = .add) ∧
      next = { kernel with
        registered := Function.update kernel.registered channel.fd
          (leaves operation channel.epollEvents) } := by
  unfold control Kernel.epollCtl leaves
  cases opened : kernel.opened channel.fd with
  | false => simp
  | true =>
    cases operation with
    | add => cases registered : kernel.registered channel.fd <;> simp [eq_comm]
    | del => cases registered : kernel.registered channel.fd <;> simp [eq_comm]
    | mod => cases registered : kernel.registered channel.fd <;> simp [eq_comm]

theorem add_ok : add kernel channel = .ok next ↔
    kernel.opened channel.fd = true ∧ kernel.registered channel.fd = none ∧
      next = { kernel with
        registered := Function.update kernel.registered channel.fd (some channel.epollEvents) } :=
  control_ok.trans (by simp [leaves])

theorem del_ok : del kernel channel = .ok next ↔
    kernel.opened channel.fd = true ∧ kernel.registered channel.fd ≠ none ∧
      next = { kernel with
        registered := Function.update kernel.registered channel.fd none } :=
  control_ok.trans (by simp [leaves])

theorem update_ok : update kernel channel = .ok next ↔
    kernel.opened channel.fd = true ∧ kernel.registered channel.fd ≠ none ∧
      next = { kernel with
        registered := Function.update kernel.registered channel.fd (some channel.epollEvents) } :=
  control_ok.trans (by simp [leaves])

end EventDispatcher

namespace Registry

variable {registry next : Registry} {element : ChannelElement Nat} {channel : Channel}

theorem channelAt_ok {number : Nat} :
    registry.channelAt number = .ok channel ↔ registry.channels[number]? = some channel := by
  unfold channelAt
  cases registry.channels[number]? with
  | none => simp
  | some found => simp

theorem fdOf_eq_some {number : Nat} {fd : Int} : registry.fdOf number = some fd ↔
    ∃ channel, registry.channels[number]? = some channel ∧ channel.fd = fd :=
  Option.map_eq_some_iff

theorem fdOf_eq {number : Nat} (place : registry.channels[number]? = some channel) :
    registry.fdOf number = some channel.fd :=
  fdOf_eq_some.mpr ⟨channel, place, rfl⟩

theorem fdOf_ne_none {number : Nat} : registry.fdOf number ≠ none ↔
    ∃ channel, registry.channels[number]? = some channel := by
  constructor
  · intro known
    obtain ⟨fd, named⟩ := Option.ne_none_iff_exists'.mp known
    obtain ⟨channel, place, _⟩ := fdOf_eq_some.mp named
    exact ⟨channel, place⟩
  · intro ⟨channel, place⟩
    exact Option.ne_none_iff_exists'.mpr ⟨channel.fd, fdOf_eq place⟩

theorem fdOf_congr (same : next.channels = registry.channels) : next.fdOf = registry.fdOf := by
  funext number
  unfold fdOf
  rw [same]

theorem addedFd_congr (same : next.fdOf = registry.fdOf) : next.addedFd = registry.addedFd := by
  funext element
  unfold addedFd
  rw [same]

theorem addedFd_eq_some {fd : Int} : registry.addedFd element = some fd ↔
    element.type = 1 ∧ registry.fdOf element.channel = some fd ∧ 0 ≤ fd := by
  unfold addedFd
  by_cases add : element.type = 1
  · rw [if_pos add]
    simp [Option.filter_eq_some_iff, add]
  · simp [add]

/-- The tables after `fd` was entered for a channel. -/
def enter (registry : Registry) (fd : Int) (number : Nat) (events : BitVec 32) : Registry :=
  { registry with
    kernel := { registry.kernel with
      registered := Function.update registry.kernel.registered fd (some events) }
    channelMap := Function.update registry.channelMap fd (some number) }

/-- The tables after `fd` was taken out of the map, and `watched` out of the epoll
instance. These are the same descriptor when the map is right. -/
def drop (registry : Registry) (fd watched : Int) : Registry :=
  { registry with
    kernel := { registry.kernel with
      registered := Function.update registry.kernel.registered watched none }
    channelMap := Function.update registry.channelMap fd none }

/-- The tables after other events were asked for. -/
def retune (registry : Registry) (fd : Int) (events : BitVec 32) : Registry :=
  { registry with
    kernel := { registry.kernel with
      registered := Function.update registry.kernel.registered fd (some events) } }

/-- What an operation on a channel can do. -/
inductive Applied (registry : Registry) (element : ChannelElement Nat) (channel : Channel) :
    Registry → Prop where
  /-- Another type. -/
  | ignored (other : element.type ≠ 1 ∧ element.type ≠ 2 ∧ element.type ≠ 3) :
      Applied registry element channel registry
  /-- A negative descriptor, a descriptor already in the map or one not in the map. -/
  | skipped (result : Int)
      (refused : element.type = 1 → 0 ≤ channel.fd →
        registry.channelMap channel.fd ≠ none) :
      Applied registry element channel (registry.log element result)
  | added (type : element.type = 1) (usable : 0 ≤ channel.fd)
      (free : registry.channelMap channel.fd = none)
      (opened : registry.kernel.opened channel.fd = true)
      (fresh : registry.kernel.registered channel.fd = none) :
      Applied registry element channel
        ((registry.enter channel.fd element.channel channel.epollEvents).log element 1)
  | removed (type : element.type = 2) (number : Nat) (mapped : Channel)
      (found : registry.channelMap channel.fd = some number)
      (place : registry.channels[number]? = some mapped)
      (watched : registry.kernel.registered mapped.fd ≠ none) :
      Applied registry element channel ((registry.drop channel.fd mapped.fd).log element 1)
  | updated (type : element.type = 3) (found : registry.channelMap channel.fd ≠ none)
      (watched : registry.kernel.registered channel.fd ≠ none) :
      Applied registry element channel
        ((registry.retune channel.fd channel.epollEvents).log element 0)

private theorem handlePendingAdd_applied {result : Int} (type : element.type = 1)
    (place : registry.channels[element.channel]? = some channel)
    (success : registry.handlePendingAdd channel.fd element.channel = .ok (result, next)) :
    Applied registry element channel (next.log element result) := by
  unfold handlePendingAdd at success
  by_cases negative : channel.fd < 0
  · rw [if_pos negative] at success
    cases success
    exact .skipped 0 fun _ usable => absurd negative (Int.not_lt.mpr usable)
  · rw [if_neg negative] at success
    cases found : registry.channelMap channel.fd with
    | some number =>
      rw [found] at success
      cases success
      exact .skipped 0 fun _ _ => Option.ne_none_iff_exists'.mpr ⟨number, found⟩
    | none =>
      rw [found] at success
      obtain ⟨added, named, rest⟩ := bind_eq_ok.mp success
      cases place.symm.trans (channelAt_ok.mp named)
      obtain ⟨kernel, control, same⟩ := bind_eq_ok.mp rest
      obtain ⟨opened, fresh, shape⟩ := EventDispatcher.add_ok.mp control
      subst shape
      cases same
      exact .added type (Int.not_lt.mp negative) found opened fresh

private theorem not_add (other : element.type ≠ 1) :
    element.type = 1 → 0 ≤ channel.fd → registry.channelMap channel.fd ≠ none :=
  fun add => absurd add other

private theorem handlePendingRemove_applied {result : Int} (type : element.type = 2)
    (success : registry.handlePendingRemove channel.fd element.channel = .ok (result, next)) :
    Applied registry element channel (next.log element result) := by
  unfold handlePendingRemove at success
  obtain ⟨given, named, rest⟩ := bind_eq_ok.mp success
  by_cases differs : channel.fd ≠ given.fd
  · rw [if_pos differs] at rest
    cases rest
  · rw [if_neg differs] at rest
    by_cases negative : channel.fd < 0
    · rw [if_pos negative] at rest
      cases rest
      exact .skipped 0 (not_add (by rw [type]; decide))
    · rw [if_neg negative] at rest
      cases found : registry.channelMap channel.fd with
      | none =>
        rw [found] at rest
        cases rest
        exact .skipped (-1) (not_add (by rw [type]; decide))
      | some number =>
        rw [found] at rest
        obtain ⟨mapped, here, last⟩ := bind_eq_ok.mp rest
        obtain ⟨kernel, control, same⟩ := bind_eq_ok.mp last
        obtain ⟨_, watched, shape⟩ := EventDispatcher.del_ok.mp control
        subst shape
        cases same
        exact .removed type number mapped found (channelAt_ok.mp here) watched

private theorem handlePendingUpdate_applied {result : Int} (type : element.type = 3)
    (place : registry.channels[element.channel]? = some channel)
    (success : registry.handlePendingUpdate channel.fd element.channel = .ok (result, next)) :
    Applied registry element channel (next.log element result) := by
  unfold handlePendingUpdate at success
  by_cases negative : channel.fd < 0
  · rw [if_pos negative] at success
    cases success
    exact .skipped 0 (not_add (by rw [type]; decide))
  · rw [if_neg negative] at success
    cases found : registry.channelMap channel.fd with
    | none =>
      rw [found] at success
      cases success
      exact .skipped (-1) (not_add (by rw [type]; decide))
    | some number =>
      rw [found] at success
      obtain ⟨changed, named, rest⟩ := bind_eq_ok.mp success
      cases place.symm.trans (channelAt_ok.mp named)
      obtain ⟨kernel, control, same⟩ := bind_eq_ok.mp rest
      obtain ⟨_, watched, shape⟩ := EventDispatcher.update_ok.mp control
      subst shape
      cases same
      exact .updated type (Option.ne_none_iff_exists'.mpr ⟨number, found⟩) watched

/-- An operation that the process survives did one of these things. -/
theorem handlePending_applied (success : registry.handlePending element = .ok next) :
    ∃ channel, registry.channels[element.channel]? = some channel ∧
      Applied registry element channel next := by
  unfold handlePending at success
  obtain ⟨channel, named, rest⟩ := bind_eq_ok.mp success
  have place := channelAt_ok.mp named
  refine ⟨channel, place, ?_⟩
  by_cases add : element.type = 1
  · rw [if_pos add] at rest
    obtain ⟨⟨result, middle⟩, handled, same⟩ := bind_eq_ok.mp rest
    cases same
    exact handlePendingAdd_applied add place handled
  · rw [if_neg add] at rest
    by_cases remove : element.type = 2
    · rw [if_pos remove] at rest
      obtain ⟨⟨result, middle⟩, handled, same⟩ := bind_eq_ok.mp rest
      cases same
      exact handlePendingRemove_applied remove handled
    · rw [if_neg remove] at rest
      by_cases update : element.type = 3
      · rw [if_pos update] at rest
        obtain ⟨⟨result, middle⟩, handled, same⟩ := bind_eq_ok.mp rest
        cases same
        exact handlePendingUpdate_applied update place handled
      · rw [if_neg update] at rest
        cases rest
        exact .ignored ⟨add, remove, update⟩

theorem Applied.channels (applied : Applied registry element channel next) :
    next.channels = registry.channels := by
  cases applied with
  | _ => rfl

/-- An operation of one of the three types is handed to its handler once. -/
theorem Applied.handled (applied : Applied registry element channel next)
    (kind : element.type = 1 ∨ element.type = 2 ∨ element.type = 3) :
    next.handled.map Prod.fst = registry.handled.map Prod.fst ++ [element] := by
  have logged : ∀ (middle : Registry) (result : Int), middle.handled = registry.handled →
      (middle.log element result).handled.map Prod.fst =
        registry.handled.map Prod.fst ++ [element] := by
    intro middle result same
    unfold log
    rw [List.map_append, same]
    rfl
  cases applied with
  | ignored other =>
    rcases kind with add | remove | update
    · exact absurd add other.1
    · exact absurd remove other.2.1
    · exact absurd update other.2.2
  | _ => exact logged _ _ rfl

/-- The map of the loop names channels that exist. -/
def Mapped (registry : Registry) : Prop :=
  ∀ fd number, registry.channelMap fd = some number →
    ∃ channel, registry.channels[number]? = some channel

theorem Applied.mapped (applied : Applied registry element channel next)
    (place : registry.channels[element.channel]? = some channel) (mapped : registry.Mapped) :
    next.Mapped := by
  intro fd number found
  rw [applied.channels]
  cases applied with
  | ignored other => exact mapped fd number found
  | skipped result refused => exact mapped fd number found
  | added type usable free opened fresh =>
    by_cases same : fd = channel.fd
    · have here : element.channel = number := by
        simpa [log, enter, same] using found
      exact ⟨channel, here ▸ place⟩
    · have earlier : registry.channelMap fd = some number := by
        simpa [log, enter, same] using found
      exact mapped fd number earlier
  | removed type other known present here watched =>
    by_cases same : fd = channel.fd
    · simp [log, drop, same] at found
    · have earlier : registry.channelMap fd = some number := by
        simpa [log, drop, same] using found
      exact mapped fd number earlier
  | updated type present watched => exact mapped fd number found

private theorem control_fault {kernel : Kernel} {control : EpollControl} {channel : Channel}
    {fault : Fault} (failed : EventDispatcher.control kernel control channel = .error fault) :
    fault = .epollCtl := by
  unfold EventDispatcher.control at failed
  split at failed
  · cases failed
  · cases failed
    rfl

private theorem add_fault {number : Nat} {fault : Fault}
    (place : registry.channels[number]? = some channel)
    (failed : registry.handlePendingAdd channel.fd number = .error fault) :
    fault = .epollCtl := by
  unfold handlePendingAdd at failed
  split at failed
  · cases failed
  · split at failed
    · rw [channelAt_ok.mpr place, ok_bind] at failed
      rcases bind_eq_error.mp failed with control | ⟨kernel, _, rest⟩
      · exact control_fault control
      · cases rest
    · cases failed

private theorem remove_fault {number : Nat} {fault : Fault} (mapped : registry.Mapped)
    (place : registry.channels[number]? = some channel)
    (failed : registry.handlePendingRemove channel.fd number = .error fault) :
    fault = .epollCtl := by
  unfold handlePendingRemove at failed
  rw [channelAt_ok.mpr place, ok_bind, if_neg (fun differs => differs rfl)] at failed
  split at failed
  · cases failed
  · cases found : registry.channelMap channel.fd with
    | none =>
      rw [found] at failed
      cases failed
    | some other =>
      obtain ⟨known, here⟩ := mapped _ _ found
      rw [found] at failed
      simp only [channelAt_ok.mpr here, ok_bind] at failed
      rcases bind_eq_error.mp failed with control | ⟨kernel, _, rest⟩
      · exact control_fault control
      · cases rest

private theorem update_fault {number : Nat} {fault : Fault}
    (place : registry.channels[number]? = some channel)
    (failed : registry.handlePendingUpdate channel.fd number = .error fault) :
    fault = .epollCtl := by
  unfold handlePendingUpdate at failed
  split at failed
  · cases failed
  · split at failed
    · cases failed
    · rw [channelAt_ok.mpr place, ok_bind] at failed
      rcases bind_eq_error.mp failed with control | ⟨kernel, _, rest⟩
      · exact control_fault control
      · cases rest

/-- With channels that exist only `epoll_ctl` can stop an operation. -/
theorem handlePending_fault (mapped : registry.Mapped)
    (place : registry.channels[element.channel]? = some channel) {fault : Fault}
    (failed : registry.handlePending element = .error fault) : fault = .epollCtl := by
  unfold handlePending at failed
  rw [channelAt_ok.mpr place, ok_bind] at failed
  by_cases add : element.type = 1
  · rw [if_pos add] at failed
    rcases bind_eq_error.mp failed with inner | ⟨result, _, rest⟩
    · exact add_fault place inner
    · cases rest
  · rw [if_neg add] at failed
    by_cases remove : element.type = 2
    · rw [if_pos remove] at failed
      rcases bind_eq_error.mp failed with inner | ⟨result, _, rest⟩
      · exact remove_fault mapped place inner
      · cases rest
    · rw [if_neg remove] at failed
      by_cases update : element.type = 3
      · rw [if_pos update] at failed
        rcases bind_eq_error.mp failed with inner | ⟨result, _, rest⟩
        · exact update_fault place inner
        · cases rest
      · rw [if_neg update] at failed
        cases failed

end Registry

end Yolanda.App
