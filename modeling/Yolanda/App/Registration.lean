import Yolanda.App.LoopInvariant
import Yolanda.Foundation.Run

/-! The map of a loop and its epoll instance through the rounds of dispatch. They
stay in step until an event with `EPOLLERR` or `EPOLLHUP` is dispatched, and never
again after that. -/

namespace Yolanda.App

open Foundation

namespace Registry

/-- The map has a channel for a descriptor that the epoll instance has lost. -/
structure StaleAt (registry : Registry) (fd : Int) (number : Nat) : Prop where
  mapped : registry.channelMap fd = some number
  named : registry.fdOf number = some fd
  lost : registry.kernel.registered fd = none

variable {registry next : Registry} {fd : Int} {number : Nat}

theorem StaleAt.extend (stale : registry.StaleAt fd number) (more : Extends registry next) :
    next.StaleAt fd number :=
  ⟨more.channelMap ▸ stale.mapped, more.names _ _ stale.named, more.registered ▸ stale.lost⟩

/-- No operation that the process survives repairs the map. -/
theorem StaleAt.applied (stale : registry.StaleAt fd number) {element : ChannelElement Nat}
    {channel : Channel} (applied : Applied registry element channel next) :
    next.StaleAt fd number := by
  cases applied with
  | ignored other => exact stale
  | skipped result refused => exact ⟨stale.mapped, stale.named, stale.lost⟩
  | added type usable free opened fresh =>
    have differs : fd ≠ channel.fd := by
      intro same
      rw [← same, stale.mapped] at free
      cases free
    refine ⟨?_, stale.named, ?_⟩
    · simpa [log, enter, differs] using stale.mapped
    · simpa [log, enter, differs] using stale.lost
  | removed type other mapped found place watched =>
    have apart : fd ≠ mapped.fd := by
      intro same
      exact watched (same ▸ stale.lost)
    have differs : fd ≠ channel.fd := by
      intro same
      have sameNumber : other = number :=
        Option.some.inj (found.symm.trans (same ▸ stale.mapped))
      have sameFd := (fdOf_eq place).symm.trans (sameNumber ▸ stale.named)
      exact apart (Option.some.inj sameFd).symm
    refine ⟨?_, stale.named, ?_⟩
    · simpa [log, drop, differs] using stale.mapped
    · simpa [log, drop, apart] using stale.lost
  | updated type found watched =>
    have differs : fd ≠ channel.fd := by
      intro same
      exact watched (same ▸ stale.lost)
    refine ⟨stale.mapped, stale.named, ?_⟩
    simpa [log, retune, differs] using stale.lost

theorem StaleAt.handleAll (stale : registry.StaleAt fd number)
    {elements : List (ChannelElement Nat)} (success : registry.handleAll elements = .ok next) :
    next.StaleAt fd number := by
  induction elements generalizing registry with
  | nil =>
    cases success
    exact stale
  | cons element elements ih =>
    obtain ⟨middle, first, rest⟩ := bind_eq_ok.mp success
    obtain ⟨channel, _, applied⟩ := handlePending_applied first
    exact ih (stale.applied applied) rest

theorem StaleAt.close (stale : registry.StaleAt fd number) (other : Int) :
    ({ registry with kernel := registry.kernel.close other } : Registry).StaleAt fd number := by
  refine ⟨stale.mapped, stale.named, ?_⟩
  by_cases same : fd = other
  · simp [Kernel.close, same]
  · simpa [Kernel.close, same] using stale.lost

end Registry

namespace EventLoop

/-- Some descriptor is in the map and no longer in the epoll instance. -/
def Stale (loop : EventLoop) : Prop :=
  ∃ fd number, loop.registry.StaleAt fd number

variable {loop next : EventLoop}

theorem Stale.extend (stale : loop.Stale) {registry : Registry}
    (more : Registry.Extends loop.registry registry) : Stale { loop with registry } := by
  obtain ⟨fd, number, there⟩ := stale
  exact ⟨fd, number, there.extend more⟩

theorem Stale.handlePendingChannel (stale : loop.Stale)
    (success : loop.handlePendingChannel = .ok next) : next.Stale := by
  obtain ⟨fd, number, there⟩ := stale
  obtain ⟨registry, handled, same⟩ := bind_eq_ok.mp success
  cases same
  exact ⟨fd, number, there.handleAll handled⟩

theorem Stale.doChannelEvent (stale : loop.Stale) {own : Bool} {channel type : Nat}
    (success : loop.doChannelEvent own channel type = .ok next) : next.Stale := by
  have queued : (loop.channelBufferNolock channel type).Stale := stale
  cases own with
  | true => exact queued.handlePendingChannel success
  | false =>
    cases success
    exact queued

theorem Stale.change (stale : loop.Stale) {own enable : Bool} {number : Nat}
    (success : loop.change own number enable = .ok next) : next.Stale := by
  unfold EventLoop.change at success
  cases place : loop.registry.channels[number]? with
  | none =>
    rw [place] at success
    cases success
    exact stale
  | some channel =>
    rw [place] at success
    have same := channel.fd_ofEnable enable
    exact (stale.extend (extends_set loop.registry place same)).doChannelEvent success

theorem Stale.changeAll (stale : loop.Stale) {own : Bool} {changes : Changes}
    (success : loop.changeAll own changes = .ok next) : next.Stale := by
  induction changes generalizing loop with
  | nil =>
    cases success
    exact stale
  | cons head changes ih =>
    obtain ⟨middle, first, rest⟩ := bind_eq_ok.mp success
    exact ih (stale.change first) rest

theorem Stale.establish (stale : loop.Stale) {own : Bool} {role : Role} {fd : Int}
    {completed : Changes} (success : loop.establish own role fd completed = .ok next) :
    next.Stale := by
  unfold EventLoop.establish at success
  cases built : loop.build role fd with
  | none =>
    rw [built] at success
    cases success
    exact stale
  | some fresh =>
    rw [built] at success
    obtain ⟨registry, same, more, _⟩ := build_cases built
    subst same
    obtain ⟨ready, called, added⟩ := bind_eq_ok.mp success
    exact ((stale.extend more).changeAll called).doChannelEvent added

theorem Stale.takeDescriptor (stale : loop.Stale) (fd : Int) : (loop.takeDescriptor fd).Stale := by
  obtain ⟨registry, same, more⟩ := takeDescriptor_cases loop fd
  rw [same]
  exact stale.extend more

theorem Stale.readCallback (stale : loop.Stale) {number : Nat} {channel : Channel}
    {reaction : Reaction} (success : loop.readCallback number channel reaction = .ok next) :
    next.Stale := by
  unfold EventLoop.readCallback at success
  split at success
  · exact stale.establish success
  · cases success
    exact stale.takeDescriptor _
  · obtain ⟨removed, first, rest⟩ := bind_eq_ok.mp success
    exact (stale.doChannelEvent first).changeAll rest
  · exact stale.changeAll success
  · cases success
    exact stale

theorem Stale.writeCallback (stale : loop.Stale) {channel : Channel} {changes : Changes}
    (success : loop.writeCallback channel changes = .ok next) : next.Stale := by
  unfold EventLoop.writeCallback at success
  split at success
  · exact stale.changeAll success
  · cases success
    exact stale

theorem Stale.activateRead (stale : loop.Stale) {fd : Int} {reaction : Reaction}
    (success : loop.activateRead fd reaction = .ok next) : next.Stale := by
  obtain ⟨found, _, rest⟩ := bind_eq_ok.mp success
  cases found with
  | none =>
    cases rest
    exact stale
  | some channel => exact stale.readCallback rest

theorem Stale.activateWrite (stale : loop.Stale) {fd : Int} {changes : Changes}
    (success : loop.activateWrite fd changes = .ok next) : next.Stale := by
  obtain ⟨found, _, rest⟩ := bind_eq_ok.mp success
  cases found with
  | none =>
    cases rest
    exact stale
  | some channel => exact stale.writeCallback rest

theorem Stale.close (stale : loop.Stale) (fd : Int) :
    Stale { loop with registry :=
      { loop.registry with kernel := loop.registry.kernel.close fd } } := by
  obtain ⟨other, number, there⟩ := stale
  exact ⟨other, number, there.close fd⟩

theorem Stale.dispatchEvent (stale : loop.Stale) {event : EpollEvent} {reaction : Reaction}
    {changes : Changes} (success : loop.dispatchEvent event reaction changes = .ok next) :
    next.Stale := by
  unfold EventLoop.dispatchEvent at success
  by_cases failed : event.failed = true
  · rw [if_pos failed] at success
    cases success
    exact stale.close event.fd
  · rw [if_neg failed] at success
    obtain ⟨middle, first, second⟩ := bind_eq_ok.mp success
    have between : middle.Stale := by
      by_cases readable : event.events &&& epollIn ≠ 0
      · rw [if_pos readable] at first
        exact stale.activateRead first
      · rw [if_neg readable] at first
        cases first
        exact stale
    by_cases writable : event.events &&& epollOut ≠ 0
    · rw [if_pos writable] at second
      exact between.activateWrite second
    · rw [if_neg writable] at second
      cases second
      exact between

theorem Stale.step (stale : loop.Stale) {event : LoopEvent}
    (success : loopStep loop event = .ok next) : next.Stale := by
  cases event with
  | establish own role fd completed => exact stale.establish success
  | change own channel enable => exact stale.change success
  | opens fd =>
    cases success
    exact stale.takeDescriptor fd
  | closes fd =>
    unfold loopStep at success
    simp only [] at success
    split at success
    · cases success
      exact stale
    · cases success
      exact stale.close fd
  | epollWait events =>
    unfold loopStep at success
    simp only [] at success
    split at success
    · cases success
      exact stale
    · cases success
      exact stale
  | dispatch reaction changes =>
    unfold loopStep at success
    cases reported : loop.reported with
    | nil =>
      simp only [reported] at success
      cases success
      exact stale
    | cons event events =>
      simp only [reported] at success
      have popped : ({ loop with reported := events } : EventLoop).Stale := stale
      exact popped.dispatchEvent success
  | handlePending => exact stale.handlePendingChannel success

/-- Dispatching a failed event closes a descriptor that stays in the map. -/
theorem stale_of_unhealthy (good : loop.Good) {event : LoopEvent} (unhealthy : ¬ Healthy loop event)
    (success : loopStep loop event = .ok next) : next.Stale := by
  cases event with
  | dispatch reaction changes =>
    unfold loopStep at success
    cases reported : loop.reported with
    | nil =>
      apply absurd _ unhealthy
      intro event head
      rw [reported] at head
      cases head
    | cons event events =>
      have failed : event.failed = true := by
        cases sane : event.failed with
        | true => rfl
        | false =>
          apply absurd _ unhealthy
          intro other head
          rw [reported] at head
          cases head
          exact sane
      simp only [reported] at success
      unfold EventLoop.dispatchEvent at success
      rw [if_pos failed] at success
      cases success
      have watched := good.watched event (by rw [reported]; exact List.mem_cons_self ..)
      have mapped := (good.consistent.keys event.fd).mpr watched
      obtain ⟨number, found⟩ := Option.ne_none_iff_exists'.mp mapped
      exact ⟨event.fd, number, found, good.consistent.own _ _ found, Function.update_self ..⟩
  | _ => exact absurd trivial unhealthy

end EventLoop

/-- A run ends without a failed `epoll_ctl` or assertion, with a map whose keys are the
registered descriptors and with every added descriptor stored, exactly when it dispatches
no event with `EPOLLERR` or `EPOLLHUP`. -/
theorem registry_consistent_iff (opened : Int → Bool) (events : List LoopEvent) :
    (∃ final, run loopStep (.start opened) events = .ok final ∧
        final.registry.Consistent ∧ final.registry.Stored) ↔
      Along loopStep Healthy (.start opened) events := by
  apply run_iff_along
  · exact fun loop event good healthy => EventLoop.loopStep_good good healthy
  · exact fun loop event next good unhealthy success =>
      EventLoop.stale_of_unhealthy good unhealthy success
  · exact fun loop event next stale success => EventLoop.Stale.step stale success
  · exact fun loop good => ⟨good.consistent, good.stored⟩
  · intro loop stale holds
    obtain ⟨fd, number, there⟩ := stale
    have mapped := Option.ne_none_iff_exists'.mpr ⟨number, there.mapped⟩
    exact (holds.1.keys fd).mp mapped there.lost
  · exact EventLoop.start_good opened

/-- The peer of a connection hangs up, and the next connection gets the same descriptor. -/
theorem hung_up_descriptor_stays :
    ∃ final, run loopStep (.start fun _ => false)
        [.establish true .connection 5 [], .epollWait [⟨5, epollHup⟩],
          .dispatch (.message []) [], .establish true .connection 5 []] = .ok final ∧
      ¬ final.registry.Consistent ∧ ¬ final.registry.Stored := by
  refine ⟨_, rfl, ?_, ?_⟩
  · intro consistent
    exact (consistent.keys 5).mp (by decide) rfl
  · intro stored
    obtain ⟨fd, named, fits⟩ := stored (⟨1, 1⟩, 0) (by decide)
    cases Option.some.inj ((show some (5 : Int) = some fd from named))
    exact absurd (fits rfl (by decide)) (by decide)

end Yolanda.App
