import Yolanda.App.Consistency

/-! What keeps a loop consistent between the steps of its threads, step by step up to the
dispatch of an event without `EPOLLERR` and `EPOLLHUP`. -/

namespace Yolanda.App


namespace EventLoop

/-- The tables are consistent, the pending list can be carried out, and what was reported
and not yet dispatched is registered. -/
structure Steady (loop : EventLoop) : Prop where
  consistent : loop.registry.Consistent
  stored : loop.registry.Stored
  awaits : loop.registry.Awaits loop.pending
  removes : ∀ element ∈ loop.pending, element.type = 2 →
    ∀ event ∈ loop.reported, loop.registry.fdOf element.channel ≠ some event.fd
  watched : ∀ event ∈ loop.reported, loop.registry.kernel.registered event.fd ≠ none
  once : (loop.reported.map EpollEvent.fd).Nodup

/-- Between the calls of its own thread the loop has no removal pending. -/
structure Good (loop : EventLoop) : Prop extends Steady loop where
  noRemove : ∀ element ∈ loop.pending, element.type ≠ 2

/-- An open descriptor that is neither in the map nor asked to be added. -/
structure Free (loop : EventLoop) (fd : Int) : Prop where
  opened : loop.registry.kernel.opened fd = true
  absent : loop.registry.channelMap fd = none
  unasked : fd ∉ loop.pending.filterMap loop.registry.addedFd

/-- Channels keep their descriptors, and what was reported stays to be dispatched. -/
structure Frame (loop next : EventLoop) : Prop where
  names : ∀ number fd, loop.registry.fdOf number = some fd →
    next.registry.fdOf number = some fd
  reported : next.reported = loop.reported

variable {loop next : EventLoop} {own : Bool} {fd : Int}

theorem Frame.refl (loop : EventLoop) : Frame loop loop :=
  ⟨fun _ _ named => named, rfl⟩

theorem Frame.trans {middle : EventLoop} (first : Frame loop middle) (second : Frame middle next) :
    Frame loop next :=
  ⟨fun number fd named => second.names number fd (first.names number fd named),
    second.reported.trans first.reported⟩

theorem start_good (opened : Int → Bool) : (start opened).Good := by
  have consistent : (start opened).registry.Consistent := by
    constructor
    · intro fd
      exact ⟨fun mapped => absurd rfl mapped, fun registered => absurd rfl registered⟩
    · intro fd registered
      exact absurd rfl registered
    · intro fd number found
      cases found
  have awaits : (start opened).registry.Awaits [] := by
    refine ⟨?_, ?_, List.nodup_nil⟩
    · intro element member
      cases member
    · intro fd member
      cases member
  refine ⟨⟨consistent, ?_, awaits, ?_, ?_, List.nodup_nil⟩, ?_⟩ <;>
    · intro other member
      cases member

/-- The loop over the pending list returns, and leaves nothing pending. -/
theorem handlePendingChannel_good (steady : loop.Steady) :
    ∃ next, loop.handlePendingChannel = .ok next ∧ next.Good ∧ Frame loop next ∧
      ∀ fd, Free loop fd → Free next fd := by
  obtain ⟨registry, handled, outcome⟩ :=
    Registry.handleAll_outcome steady.consistent steady.awaits
  have names := Registry.fdOf_congr outcome.channels
  refine ⟨{ loop with registry, pending := [] }, bind_eq_ok.mpr ⟨registry, handled, rfl⟩,
    ⟨⟨outcome.consistent, outcome.stored steady.stored, ⟨?_, ?_, List.nodup_nil⟩, ?_, ?_,
      steady.once⟩, ?_⟩, ⟨?_, rfl⟩, ?_⟩
  · intro element member
    cases member
  · intro fd member
    cases member
  · intro element member
    cases member
  · intro event member
    apply outcome.watched event.fd (steady.watched event member)
    intro element asked remove
    exact steady.removes element asked remove event member
  · intro element member
    cases member
  · intro number fd named
    change registry.fdOf number = some fd
    rw [names]
    exact named
  · intro fd free
    refine ⟨?_, outcome.free fd free.absent free.unasked, ?_⟩
    · change registry.kernel.opened fd = true
      rw [outcome.opened]
      exact free.opened
    · intro member
      cases member

/-- What a call of `do_channel_event` may ask for. -/
structure Acceptable (loop : EventLoop) (own : Bool) (channel type : Nat) (fd : Int) : Prop where
  named : loop.registry.fdOf channel = some fd
  add : type = 1 → 0 ≤ fd → Free loop fd
  remove : type = 2 → own = true ∧ ∀ event ∈ loop.reported, event.fd ≠ fd

theorem Acceptable.update (own : Bool) {channel : Nat}
    (named : loop.registry.fdOf channel = some fd) : Acceptable loop own channel 3 fd :=
  ⟨named, nofun, nofun⟩

section Queue

variable {channel type : Nat}

/-- The last operation of the list asks for its own descriptor only. -/
private theorem added_of_last (named : loop.registry.fdOf channel = some fd) {other : Int}
    (member : other ∈ [(⟨type, channel⟩ : ChannelElement Nat)].filterMap loop.registry.addedFd) :
    type = 1 ∧ other = fd ∧ 0 ≤ fd := by
  obtain ⟨element, one, added⟩ := List.mem_filterMap.mp member
  rw [List.mem_singleton.mp one] at added
  obtain ⟨add, is, usable⟩ := Registry.addedFd_eq_some.mp added
  cases is.symm.trans named
  exact ⟨add, rfl, usable⟩

private theorem queued_awaits (awaits : loop.registry.Awaits loop.pending)
    (acceptable : Acceptable loop own channel type fd) :
    loop.registry.Awaits (loop.pending ++ [⟨type, channel⟩]) := by
  constructor
  · intro element member
    rcases List.mem_append.mp member with early | new
    · exact awaits.known element early
    · rw [List.mem_singleton.mp new]
      exact Option.ne_none_iff_exists'.mpr ⟨fd, acceptable.named⟩
  · intro other member
    rw [List.filterMap_append] at member
    rcases List.mem_append.mp member with early | new
    · exact awaits.fresh other early
    · obtain ⟨add, same, usable⟩ := added_of_last acceptable.named new
      subst other
      exact ⟨(acceptable.add add usable).opened, (acceptable.add add usable).absent⟩
  · rw [List.filterMap_append, List.nodup_append']
    refine ⟨awaits.distinct, ?_, ?_⟩
    · rw [List.filterMap_cons, List.filterMap_nil]
      split
      · exact List.nodup_nil
      · exact List.nodup_singleton _
    · intro other early new
      obtain ⟨add, same, usable⟩ := added_of_last acceptable.named new
      subst other
      exact (acceptable.add add usable).unasked early

private theorem channelBufferNolock_steady (good : loop.Good)
    (acceptable : Acceptable loop own channel type fd) :
    (loop.channelBufferNolock channel type).Steady := by
  refine ⟨good.consistent, good.stored, queued_awaits good.awaits acceptable, ?_,
    good.watched, good.once⟩
  intro element member remove event present
  rcases List.mem_append.mp member with early | new
  · exact good.removes element early remove event present
  · rw [List.mem_singleton.mp new] at remove ⊢
    change loop.registry.fdOf channel ≠ some event.fd
    rw [acceptable.named]
    intro same
    exact (acceptable.remove remove).2 event present (Option.some.inj same).symm

private theorem channelBufferNolock_free (named : loop.registry.fdOf channel = some fd) {other : Int}
    (free : Free loop other) (differs : type = 1 → other ≠ fd) :
    Free (loop.channelBufferNolock channel type) other := by
  refine ⟨free.opened, free.absent, ?_⟩
  intro member
  change other ∈ List.filterMap loop.registry.addedFd (loop.pending ++ [⟨type, channel⟩]) at member
  rw [List.filterMap_append] at member
  rcases List.mem_append.mp member with early | new
  · exact free.unasked early
  · obtain ⟨add, same, _⟩ := added_of_last named new
    exact differs add same

theorem doChannelEvent_good (good : loop.Good)
    (acceptable : Acceptable loop own channel type fd) :
    ∃ next, loop.doChannelEvent own channel type = .ok next ∧ next.Good ∧ Frame loop next ∧
      ∀ other, Free loop other → (type = 1 → other ≠ fd) → Free next other := by
  have steady := channelBufferNolock_steady good acceptable
  have queued : ∀ other, Free loop other → (type = 1 → other ≠ fd) →
      Free (loop.channelBufferNolock channel type) other :=
    fun _ free differs => channelBufferNolock_free acceptable.named free differs
  cases own with
  | true =>
    obtain ⟨next, handled, kept, frame, frees⟩ := handlePendingChannel_good steady
    exact ⟨next, handled, kept, ⟨frame.names, frame.reported⟩,
      fun other free differs => frees other (queued other free differs)⟩
  | false =>
    refine ⟨_, rfl, ⟨steady, ?_⟩, ⟨fun _ _ named => named, rfl⟩, queued⟩
    intro element member
    rcases List.mem_append.mp member with early | new
    · exact good.noRemove element early
    · rw [List.mem_singleton.mp new]
      intro remove
      cases (acceptable.remove remove).1

end Queue

/-- More channels and more open descriptors leave the loop as good as it was. -/
theorem Good.extend (good : loop.Good) {registry : Registry}
    (more : Registry.Extends loop.registry registry) :
    ({ loop with registry } : EventLoop).Good := by
  have known : ∀ element ∈ loop.pending, ∀ fd, registry.fdOf element.channel = some fd →
      loop.registry.fdOf element.channel = some fd := by
    intro element member fd named
    obtain ⟨own, is⟩ := Option.ne_none_iff_exists'.mp (good.awaits.known element member)
    rw [is, ← more.names _ _ is]
    exact named
  refine ⟨⟨good.consistent.extend more, good.stored.extend more, good.awaits.extend more,
    ?_, ?_, good.once⟩, good.noRemove⟩
  · intro element member remove event present same
    exact good.removes element member remove event present (known element member _ same)
  · intro event present
    change registry.kernel.registered event.fd ≠ none
    rw [more.registered]
    exact good.watched event present

theorem Free.extend (free : Free loop fd) (good : loop.Good) {registry : Registry}
    (more : Registry.Extends loop.registry registry) : Free { loop with registry } fd := by
  refine ⟨more.opened fd free.opened, ?_, ?_⟩
  · change registry.channelMap fd = none
    rw [more.channelMap]
    exact free.absent
  · change fd ∉ loop.pending.filterMap registry.addedFd
    rw [more.added good.awaits.known]
    exact free.unasked

/-- Other events of a channel are no other tables. -/
theorem extends_set (registry : Registry) {number : Nat} {channel changed : Channel}
    (place : registry.channels[number]? = some channel) (same : changed.fd = channel.fd) :
    Registry.Extends registry
      { registry with channels := registry.channels.set number changed } := by
  refine ⟨?_, rfl, rfl, fun _ opened => opened, rfl⟩
  intro other fd named
  unfold Registry.fdOf at named ⊢
  by_cases here : number = other
  · subst other
    have inside := (List.getElem?_eq_some_iff.mp place).1
    rw [place] at named
    rw [List.getElem?_set_self inside, ← named]
    exact congrArg some same
  · rw [List.getElem?_set_ne here]
    exact named

theorem change_good (good : loop.Good) (own : Bool) (number : Nat) (enable : Bool) :
    ∃ next, loop.change own number enable = .ok next ∧ next.Good ∧ Frame loop next ∧
      ∀ fd, Free loop fd → Free next fd := by
  unfold change
  cases place : loop.registry.channels[number]? with
  | none => exact ⟨loop, rfl, good, .refl loop, fun _ free => free⟩
  | some channel =>
    have same := channel.fd_ofEnable enable
    have more := extends_set loop.registry place same
    have named := more.names number channel.fd (Registry.fdOf_eq place)
    obtain ⟨next, success, kept, frame, frees⟩ :=
      doChannelEvent_good (good.extend more) (.update own named)
    refine ⟨next, success, kept,
      ⟨fun other fd is => frame.names other fd (more.names other fd is), frame.reported⟩, ?_⟩
    intro fd free
    exact frees fd (free.extend good more) nofun

theorem changeAll_good (good : loop.Good) (own : Bool) (changes : Changes) :
    ∃ next, loop.changeAll own changes = .ok next ∧ next.Good ∧ Frame loop next ∧
      ∀ fd, Free loop fd → Free next fd := by
  induction changes generalizing loop with
  | nil => exact ⟨loop, rfl, good, .refl loop, fun _ free => free⟩
  | cons head changes ih =>
    obtain ⟨middle, first, kept, frame, frees⟩ := change_good good own head.1 head.2
    obtain ⟨next, rest, last, others, stay⟩ := ih kept
    exact ⟨next, bind_eq_ok.mpr ⟨middle, first, rest⟩, last, frame.trans others,
      fun fd free => stay fd (frees fd free)⟩

private theorem extends_concat (registry : Registry) (kernel : Kernel) (channel : Channel)
    (registered : kernel.registered = registry.kernel.registered)
    (opened : ∀ fd, registry.kernel.opened fd = true → kernel.opened fd = true) :
    Registry.Extends registry
      { registry with kernel, channels := registry.channels ++ [channel] } := by
  refine ⟨?_, rfl, registered, opened, rfl⟩
  intro number fd named
  obtain ⟨found, place, _⟩ := Registry.fdOf_eq_some.mp named
  have inside := (List.getElem?_eq_some_iff.mp place).1
  unfold Registry.fdOf at named ⊢
  simp only [List.getElem?_append_left inside]
  exact named

private theorem opened_takeDescriptor (kernel : Kernel) (fd other : Int)
    (opened : kernel.opened other = true) : (kernel.takeDescriptor fd).opened other = true := by
  by_cases same : other = fd
  · simp [Kernel.takeDescriptor, same]
  · simpa [Kernel.takeDescriptor, same] using opened

/-- A new channel is added to the tables, with a descriptor that was closed. -/
theorem build_cases {role : Role} (success : loop.build role fd = some next) :
    ∃ registry, next = { loop with registry } ∧ Registry.Extends loop.registry registry ∧
      registry.fdOf loop.registry.channels.length = some fd ∧
      (0 ≤ fd → loop.registry.kernel.opened fd = false ∧ registry.kernel.opened fd = true) := by
  have fdEq : (role.channel loop.registry.channels.length fd).fd = fd := by
    cases role with
    | wakeup => rfl
    | listening => rfl
    | connection => rfl
  have here : ((loop.registry.channels ++ [role.channel loop.registry.channels.length fd])[
      loop.registry.channels.length]?).map Channel.fd = some fd := by
    rw [List.getElem?_concat_length, Option.map_some, fdEq]
  unfold build at success
  by_cases negative : fd < 0
  · simp only [negative, ↓reduceIte, Option.some.injEq] at success
    refine ⟨_, success.symm, extends_concat _ _ _ rfl fun _ opened => opened, here, ?_⟩
    intro usable
    exact absurd negative (Int.not_lt.mpr usable)
  · cases opened : loop.registry.kernel.opened fd with
    | true => simp [negative, opened] at success
    | false =>
      simp only [negative, opened, ↓reduceIte, Bool.false_eq_true, Option.some.injEq] at success
      refine ⟨_, success.symm, extends_concat _ _ _ rfl ?_, here, ?_⟩
      · exact fun other isOpen => opened_takeDescriptor _ fd other isOpen
      · exact fun _ => ⟨rfl, Function.update_self ..⟩

/-- A new channel leaves the loop good, and its descriptor is free. -/
theorem build_good (good : loop.Good) {role : Role} (success : loop.build role fd = some next) :
    next.Good ∧ Frame loop next ∧
      next.registry.fdOf loop.registry.channels.length = some fd ∧ (0 ≤ fd → Free next fd) := by
  obtain ⟨registry, same, more, named, fresh⟩ := build_cases success
  subst same
  refine ⟨good.extend more, ⟨more.names, rfl⟩, named, ?_⟩
  intro usable
  obtain ⟨closed, opened⟩ := fresh usable
  have unregistered : loop.registry.kernel.registered fd = none := by
    by_contra present
    rw [good.consistent.opened fd present] at closed
    cases closed
  refine ⟨opened, ?_, ?_⟩
  · by_contra mapped
    rw [more.channelMap] at mapped
    exact (good.consistent.keys fd).mp mapped unregistered
  · change fd ∉ loop.pending.filterMap registry.addedFd
    rw [more.added good.awaits.known]
    intro asked
    rw [(good.awaits.fresh fd asked).1] at closed
    cases closed

theorem establish_good (good : loop.Good) (own : Bool) (role : Role) (fd : Int)
    (completed : Changes) :
    ∃ next, loop.establish own role fd completed = .ok next ∧ next.Good ∧ Frame loop next := by
  unfold establish
  cases built : loop.build role fd with
  | none => exact ⟨loop, rfl, good, .refl loop⟩
  | some fresh =>
    obtain ⟨kept, frame, named, free⟩ := build_good good built
    obtain ⟨ready, called, still, others, frees⟩ :=
      changeAll_good kept own (role.completed completed)
    have acceptable : Acceptable ready own loop.registry.channels.length 1 fd :=
      ⟨others.names _ _ named, fun _ usable => frees fd (free usable), nofun⟩
    obtain ⟨next, success, last, final, _⟩ := doChannelEvent_good still acceptable
    exact ⟨next, bind_eq_ok.mpr ⟨ready, called, success⟩, last, (frame.trans others).trans final⟩

theorem takeDescriptor_cases (loop : EventLoop) (fd : Int) :
    ∃ registry, loop.takeDescriptor fd = { loop with registry } ∧
      Registry.Extends loop.registry registry := by
  unfold takeDescriptor
  by_cases negative : fd < 0
  · exact ⟨loop.registry, if_pos negative,
      ⟨fun _ _ named => named, rfl, rfl, fun _ opened => opened, rfl⟩⟩
  · refine ⟨_, if_neg negative, ⟨fun _ _ named => named, rfl, rfl, ?_, rfl⟩⟩
    exact fun other isOpen => opened_takeDescriptor _ fd other isOpen

theorem takeDescriptor_good (good : loop.Good) (fd : Int) :
    (loop.takeDescriptor fd).Good ∧ Frame loop (loop.takeDescriptor fd) := by
  obtain ⟨registry, same, more⟩ := takeDescriptor_cases loop fd
  rw [same]
  exact ⟨good.extend more, more.names, rfl⟩

theorem closeConnection_good (good : loop.Good) {number : Nat}
    (named : loop.registry.fdOf number = some fd) (apart : ∀ event ∈ loop.reported, event.fd ≠ fd)
    (changes : Changes) :
    ∃ next, loop.closeConnection number changes = .ok next ∧ next.Good ∧ Frame loop next := by
  have acceptable : Acceptable loop true number 2 fd := ⟨named, nofun, fun _ => ⟨rfl, apart⟩⟩
  obtain ⟨removed, success, kept, frame, _⟩ := doChannelEvent_good good acceptable
  obtain ⟨next, called, last, others, _⟩ := changeAll_good kept true changes
  exact ⟨next, bind_eq_ok.mpr ⟨removed, success, called⟩, last, frame.trans others⟩

theorem readCallback_good (good : loop.Good) {number : Nat}
    (named : loop.registry.fdOf number = some fd) (apart : ∀ event ∈ loop.reported, event.fd ≠ fd)
    (channel : Channel) (reaction : Reaction) :
    ∃ next, loop.readCallback number channel reaction = .ok next ∧ next.Good ∧
      Frame loop next := by
  unfold readCallback
  split
  · exact establish_good good ..
  · obtain ⟨kept, frame⟩ := takeDescriptor_good good _
    exact ⟨_, rfl, kept, frame⟩
  · exact closeConnection_good good named apart _
  · obtain ⟨next, success, kept, frame, _⟩ := changeAll_good good true _
    exact ⟨next, success, kept, frame⟩
  · exact ⟨loop, rfl, good, .refl loop⟩

theorem writeCallback_good (good : loop.Good) (channel : Channel) (changes : Changes) :
    ∃ next, loop.writeCallback channel changes = .ok next ∧ next.Good ∧ Frame loop next := by
  unfold writeCallback
  split
  · obtain ⟨next, success, kept, frame, _⟩ := changeAll_good good true changes
    exact ⟨next, success, kept, frame⟩
  · exact ⟨loop, rfl, good, .refl loop⟩

/-- The channel found for a descriptor is one for it, so the assertion holds. -/
private theorem activated_cases (consistent : loop.registry.Consistent) (fd : Int) :
    loop.registry.activated fd = .ok none ∨
      ∃ number channel, loop.registry.activated fd = .ok (some (number, channel)) ∧
        loop.registry.fdOf number = some fd := by
  unfold Registry.activated
  by_cases negative : fd < 0
  · exact .inl (if_pos negative)
  · rw [if_neg negative]
    cases found : loop.registry.channelMap fd with
    | none => exact .inl rfl
    | some number =>
      have own := consistent.own fd number found
      obtain ⟨channel, place, same⟩ := Registry.fdOf_eq_some.mp own
      refine .inr ⟨number, channel, ?_, own⟩
      simp only [Registry.channelAt_ok.mpr place, ok_bind, same, ne_eq, not_true_eq_false,
        ↓reduceIte, pure, Except.pure]

theorem activateRead_good (good : loop.Good) (apart : ∀ event ∈ loop.reported, event.fd ≠ fd)
    (reaction : Reaction) :
    ∃ next, loop.activateRead fd reaction = .ok next ∧ next.Good ∧ Frame loop next := by
  unfold activateRead
  rcases activated_cases good.consistent fd with none | ⟨number, channel, found, named⟩
  · rw [none]
    exact ⟨loop, rfl, good, .refl loop⟩
  · rw [found]
    exact readCallback_good good named apart channel reaction

theorem activateWrite_good (good : loop.Good) (fd : Int) (changes : Changes) :
    ∃ next, loop.activateWrite fd changes = .ok next ∧ next.Good ∧ Frame loop next := by
  unfold activateWrite
  rcases activated_cases good.consistent fd with none | ⟨number, channel, found, _⟩
  · rw [none]
    exact ⟨loop, rfl, good, .refl loop⟩
  · rw [found]
    exact writeCallback_good good channel changes

/-- An event without `EPOLLERR` and `EPOLLHUP` is dispatched, and the loop stays good. -/
theorem dispatchEvent_good (good : loop.Good) {event : EpollEvent}
    (apart : ∀ other ∈ loop.reported, other.fd ≠ event.fd) (sane : event.failed = false)
    (reaction : Reaction) (changes : Changes) :
    ∃ next, loop.dispatchEvent event reaction changes = .ok next ∧ next.Good := by
  have read : ∃ middle, (if event.events &&& epollIn ≠ 0 then
      loop.activateRead event.fd reaction else .ok loop) = .ok middle ∧ middle.Good := by
    by_cases readable : event.events &&& epollIn ≠ 0
    · obtain ⟨middle, success, kept, _⟩ := activateRead_good good apart reaction
      exact ⟨middle, (if_pos readable).trans success, kept⟩
    · exact ⟨loop, if_neg readable, good⟩
  obtain ⟨middle, first, kept⟩ := read
  have write : ∃ next, (if event.events &&& epollOut ≠ 0 then
      middle.activateWrite event.fd changes else .ok middle) = .ok next ∧ next.Good := by
    by_cases writable : event.events &&& epollOut ≠ 0
    · obtain ⟨next, success, last, _⟩ := activateWrite_good kept event.fd changes
      exact ⟨next, (if_pos writable).trans success, last⟩
    · exact ⟨middle, if_neg writable, kept⟩
  obtain ⟨next, second, last⟩ := write
  refine ⟨next, ?_, last⟩
  unfold dispatchEvent
  rw [if_neg (Bool.eq_false_iff.mp sane)]
  exact bind_eq_ok.mpr ⟨middle, first, second⟩

/-- A descriptor the loop does not hold may be closed. -/
theorem closes_good (good : loop.Good) (loose : loop.holds fd = false) :
    ({ loop with registry :=
      { loop.registry with kernel := loop.registry.kernel.close fd } } : EventLoop).Good := by
  obtain ⟨unmapped, unasked⟩ := Bool.or_eq_false_iff.mp loose
  have absent : loop.registry.channelMap fd = none := by
    simpa using unmapped
  have unregistered : loop.registry.kernel.registered fd = none := by
    by_contra present
    exact (good.consistent.keys fd).mpr present absent
  have registered : (loop.registry.kernel.close fd).registered =
      loop.registry.kernel.registered :=
    Function.update_eq_self_iff.mpr unregistered.symm
  have opened : ∀ other, other ≠ fd →
      (loop.registry.kernel.close fd).opened other = loop.registry.kernel.opened other :=
    fun other differs => Function.update_of_ne differs ..
  refine ⟨⟨?_, good.stored, ⟨good.awaits.known, ?_, good.awaits.distinct⟩, good.removes, ?_,
    good.once⟩, good.noRemove⟩
  · constructor
    · intro other
      change _ ↔ (loop.registry.kernel.close fd).registered other ≠ none
      rw [registered]
      exact good.consistent.keys other
    · intro other
      change (loop.registry.kernel.close fd).registered other ≠ none →
        (loop.registry.kernel.close fd).opened other = true
      rw [registered]
      intro present
      have differs : other ≠ fd := by
        intro same
        exact present (same ▸ unregistered)
      rw [opened other differs]
      exact good.consistent.opened other present
    · exact good.consistent.own
  · intro other member
    obtain ⟨isOpen, free⟩ := good.awaits.fresh other member
    have differs : other ≠ fd := by
      intro same
      have asked : (loop.pending.filterMap loop.registry.addedFd).contains fd = true :=
        List.contains_iff_mem.mpr (same ▸ member)
      rw [unasked] at asked
      cases asked
    exact ⟨(opened other differs).trans isOpen, free⟩
  · intro event member
    change (loop.registry.kernel.close fd).registered event.fd ≠ none
    rw [registered]
    exact good.watched event member

end EventLoop

/-- The step dispatches no event with `EPOLLERR` or `EPOLLHUP`. -/
def Healthy (loop : EventLoop) : LoopEvent → Prop
  | .dispatch _ _ => ∀ event ∈ loop.reported.head?, event.failed = false
  | _ => True

namespace EventLoop

variable {loop next : EventLoop} {fd : Int}

/-- What `epoll_wait` may report is registered, each descriptor once. -/
theorem Good.report (good : loop.Good) {events : List EpollEvent}
    (allowed : loop.mayReport events = true) :
    ({ loop with reported := events } : EventLoop).Good := by
  unfold mayReport at allowed
  simp only [Bool.and_eq_true, List.all_eq_true, decide_eq_true_eq] at allowed
  obtain ⟨⟨⟨_, watched⟩, once⟩, _⟩ := allowed
  refine ⟨⟨good.consistent, good.stored, good.awaits, ?_, ?_, once⟩, good.noRemove⟩
  · intro element member remove
    exact absurd remove (good.noRemove element member)
  · intro event member
    exact Option.isSome_iff_ne_none.mp (watched event member)

/-- Taking the next event from what was reported. The later ones are about others. -/
theorem Good.take (good : loop.Good) {event : EpollEvent} {events : List EpollEvent}
    (reported : loop.reported = event :: events) :
    ({ loop with reported := events } : EventLoop).Good ∧
      ∀ other ∈ events, other.fd ≠ event.fd := by
  have once := good.once
  rw [reported, List.map_cons, List.nodup_cons] at once
  have fewer : ∀ other ∈ events, other ∈ loop.reported := by
    intro other member
    rw [reported]
    exact List.mem_cons_of_mem _ member
  refine ⟨⟨⟨good.consistent, good.stored, good.awaits, ?_, ?_, once.2⟩, good.noRemove⟩, ?_⟩
  · intro element member remove other here
    exact good.removes element member remove other (fewer other here)
  · intro other here
    exact good.watched other (fewer other here)
  · intro other member same
    exact once.1 (List.mem_map.mpr ⟨other, member, same⟩)

theorem loopStep_good (good : loop.Good) {event : LoopEvent} (healthy : Healthy loop event) :
    ∃ next, loopStep loop event = .ok next ∧ next.Good := by
  cases event with
  | establish own role fd completed =>
    obtain ⟨next, success, kept, _⟩ := establish_good good own role fd completed
    exact ⟨next, success, kept⟩
  | change own channel enable =>
    obtain ⟨next, success, kept, _⟩ := change_good good own channel enable
    exact ⟨next, success, kept⟩
  | opens fd => exact ⟨_, rfl, (takeDescriptor_good good fd).1⟩
  | closes fd =>
    cases held : loop.holds fd with
    | true => exact ⟨loop, if_pos held, good⟩
    | false => exact ⟨_, if_neg (Bool.eq_false_iff.mp held), closes_good good held⟩
  | epollWait events =>
    cases allowed : loop.mayReport events with
    | false => exact ⟨loop, if_neg (Bool.eq_false_iff.mp allowed), good⟩
    | true => exact ⟨_, if_pos allowed, good.report allowed⟩
  | dispatch reaction changes =>
    cases reported : loop.reported with
    | nil =>
      refine ⟨loop, ?_, good⟩
      unfold loopStep
      rw [reported]
    | cons event events =>
      have sane : event.failed = false := healthy event (by rw [reported]; rfl)
      obtain ⟨popped, apart⟩ := good.take reported
      obtain ⟨next, success, kept⟩ := dispatchEvent_good popped apart sane reaction changes
      refine ⟨next, ?_, kept⟩
      unfold loopStep
      simp only [reported]
      exact success
  | handlePending =>
    obtain ⟨next, success, kept, _⟩ := handlePendingChannel_good good.toSteady
    exact ⟨next, success, kept⟩

end EventLoop

end Yolanda.App
