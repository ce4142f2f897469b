import Mathlib.Data.List.Nodup
import Yolanda.App.RegistryStep

/-! Tables whose map agrees with the epoll instance, and what operations can be asked of
them. Such tables carry out a list of operations that they await, and stay consistent. -/

namespace Yolanda.App

namespace Registry

variable {registry next : Registry} {element : ChannelElement Nat} {channel : Channel}

/-- The map and the epoll instance have the same descriptors, all of them open, and the
channel under a descriptor is one for it. -/
structure Consistent (registry : Registry) : Prop where
  keys : ∀ fd, registry.channelMap fd ≠ none ↔ registry.kernel.registered fd ≠ none
  opened : ∀ fd, registry.kernel.registered fd ≠ none → registry.kernel.opened fd = true
  own : ∀ fd number, registry.channelMap fd = some number → registry.fdOf number = some fd

/-- Each handled operation that adds a channel with a descriptor stored it. -/
def Stored (registry : Registry) : Prop :=
  ∀ entry ∈ registry.handled, ∃ fd, registry.fdOf entry.1.channel = some fd ∧
    (entry.1.type = 1 → 0 ≤ fd → entry.2 = 1)

/-- The operations are on channels, and what they add is open, not in the map and
added once. -/
structure Awaits (registry : Registry) (elements : List (ChannelElement Nat)) : Prop where
  known : ∀ element ∈ elements, registry.fdOf element.channel ≠ none
  fresh : ∀ fd ∈ elements.filterMap registry.addedFd,
    registry.kernel.opened fd = true ∧ registry.channelMap fd = none
  distinct : (elements.filterMap registry.addedFd).Nodup

/-- The operations were carried out, and nothing else happened. -/
structure Outcome (registry : Registry) (elements : List (ChannelElement Nat))
    (next : Registry) : Prop where
  consistent : next.Consistent
  channels : next.channels = registry.channels
  opened : next.kernel.opened = registry.kernel.opened
  free : ∀ fd, registry.channelMap fd = none → fd ∉ elements.filterMap registry.addedFd →
    next.channelMap fd = none
  watched : ∀ fd, registry.kernel.registered fd ≠ none →
    (∀ element ∈ elements, element.type = 2 → registry.fdOf element.channel ≠ some fd) →
    next.kernel.registered fd ≠ none
  stored : registry.Stored → next.Stored

/-- What is in a consistent map can be changed in the epoll instance. -/
theorem Consistent.watched (consistent : registry.Consistent) {number : Nat} {fd : Int}
    (found : registry.channelMap fd = some number) :
    registry.kernel.opened fd = true ∧ registry.kernel.registered fd ≠ none := by
  have mapped := Option.ne_none_iff_exists'.mpr ⟨number, found⟩
  have registered := (consistent.keys _).mp mapped
  exact ⟨consistent.opened _ registered, registered⟩

private theorem handlePendingAdd_returns (consistent : registry.Consistent) {number : Nat}
    (place : registry.channels[number]? = some channel)
    (fresh : 0 ≤ channel.fd → registry.kernel.opened channel.fd = true) :
    ∃ result, registry.handlePendingAdd channel.fd number = .ok result := by
  unfold handlePendingAdd
  by_cases negative : channel.fd < 0
  · exact ⟨_, if_pos negative⟩
  · rw [if_neg negative]
    cases found : registry.channelMap channel.fd with
    | some number => exact ⟨_, rfl⟩
    | none =>
      have missing : registry.kernel.registered channel.fd = none := by
        by_contra present
        exact (consistent.keys _).mpr present found
      have stored := EventDispatcher.add_ok.mpr ⟨fresh (Int.not_lt.mp negative), missing, rfl⟩
      simp only [channelAt_ok.mpr place, ok_bind, stored]
      exact ⟨_, rfl⟩

private theorem handlePendingRemove_returns (consistent : registry.Consistent) {number : Nat}
    (place : registry.channels[number]? = some channel) :
    ∃ result, registry.handlePendingRemove channel.fd number = .ok result := by
  unfold handlePendingRemove
  rw [channelAt_ok.mpr place, ok_bind, if_neg (fun differs => differs rfl)]
  by_cases negative : channel.fd < 0
  · exact ⟨_, if_pos negative⟩
  · rw [if_neg negative]
    cases found : registry.channelMap channel.fd with
    | none => exact ⟨_, rfl⟩
    | some other =>
      have own := consistent.own _ _ found
      obtain ⟨mapped, here, same⟩ := fdOf_eq_some.mp own
      obtain ⟨opened, registered⟩ := consistent.watched found
      rw [← same] at opened registered
      have deleted := EventDispatcher.del_ok.mpr ⟨opened, registered, rfl⟩
      simp only [channelAt_ok.mpr here, ok_bind, deleted]
      exact ⟨_, rfl⟩

private theorem handlePendingUpdate_returns (consistent : registry.Consistent) {number : Nat}
    (place : registry.channels[number]? = some channel) :
    ∃ result, registry.handlePendingUpdate channel.fd number = .ok result := by
  unfold handlePendingUpdate
  by_cases negative : channel.fd < 0
  · exact ⟨_, if_pos negative⟩
  · rw [if_neg negative]
    cases found : registry.channelMap channel.fd with
    | none => exact ⟨_, rfl⟩
    | some other =>
      obtain ⟨opened, registered⟩ := consistent.watched found
      have updated := EventDispatcher.update_ok.mpr ⟨opened, registered, rfl⟩
      simp only [channelAt_ok.mpr place, ok_bind, updated]
      exact ⟨_, rfl⟩

/-- Consistent tables carry out every operation whose descriptor is open. -/
theorem handlePending_returns (consistent : registry.Consistent)
    (known : registry.fdOf element.channel ≠ none)
    (fresh : ∀ fd, registry.addedFd element = some fd → registry.kernel.opened fd = true) :
    ∃ next, registry.handlePending element = .ok next := by
  obtain ⟨channel, place⟩ := fdOf_ne_none.mp known
  unfold handlePending
  rw [channelAt_ok.mpr place, ok_bind]
  by_cases add : element.type = 1
  · have usableOpen := fun usable => fresh channel.fd (addedFd_eq_some.mpr ⟨add, fdOf_eq place, usable⟩)
    obtain ⟨result, success⟩ := handlePendingAdd_returns consistent place usableOpen
    simp only [add, ↓reduceIte, success, ok_bind]
    exact ⟨_, rfl⟩
  · rw [if_neg add]
    by_cases remove : element.type = 2
    · obtain ⟨result, success⟩ := handlePendingRemove_returns consistent place
      simp only [remove, ↓reduceIte, success, ok_bind]
      exact ⟨_, rfl⟩
    · rw [if_neg remove]
      by_cases update : element.type = 3
      · obtain ⟨result, success⟩ := handlePendingUpdate_returns consistent place
        simp only [update, ↓reduceIte, success, ok_bind]
        exact ⟨_, rfl⟩
      · exact ⟨_, if_neg update⟩

theorem Outcome.trans {middle : Registry} {first second : List (ChannelElement Nat)}
    (before : Outcome registry first middle) (after : Outcome middle second next) :
    Outcome registry (first ++ second) next := by
  have names := fdOf_congr before.channels
  have added := addedFd_congr names
  refine ⟨after.consistent, after.channels.trans before.channels,
    after.opened.trans before.opened, ?_, ?_, fun stored => after.stored (before.stored stored)⟩
  · intro fd absent others
    rw [List.filterMap_append, List.mem_append, not_or] at others
    apply after.free fd (before.free fd absent others.1)
    rw [added]
    exact others.2
  · intro fd watched others
    apply after.watched fd
    · apply before.watched fd watched
      intro element member
      exact others element (List.mem_append_left _ member)
    · intro element member
      rw [names]
      exact others element (List.mem_append_right _ member)

theorem Outcome.refl (consistent : registry.Consistent) : Outcome registry [] registry :=
  ⟨consistent, rfl, rfl, fun _ free _ => free, fun _ watched _ => watched, id⟩

theorem Consistent.enter (consistent : registry.Consistent) {number : Nat} {fd : Int}
    (named : registry.fdOf number = some fd) (opened : registry.kernel.opened fd = true)
    (events : BitVec 32) : (registry.enter fd number events).Consistent := by
  constructor
  · intro other
    by_cases same : other = fd
    · subst other
      simp [Registry.enter]
    · simpa [Registry.enter, same] using consistent.keys other
  · intro other
    by_cases same : other = fd
    · subst other
      exact fun _ => opened
    · simpa [Registry.enter, same] using consistent.opened other
  · intro other place found
    by_cases same : other = fd
    · subst other
      have here : number = place := by simpa [Registry.enter] using found
      exact here ▸ named
    · have earlier : registry.channelMap other = some place := by
        simpa [Registry.enter, same] using found
      exact consistent.own other place earlier

theorem Consistent.drop (consistent : registry.Consistent) (fd : Int) :
    (registry.drop fd fd).Consistent := by
  constructor
  · intro other
    by_cases same : other = fd
    · subst other
      simp [Registry.drop]
    · simpa [Registry.drop, same] using consistent.keys other
  · intro other
    by_cases same : other = fd
    · subst other
      intro registered
      exact absurd (Function.update_self ..) registered
    · simpa [Registry.drop, same] using consistent.opened other
  · intro other place found
    by_cases same : other = fd
    · subst other
      simp [Registry.drop] at found
    · have earlier : registry.channelMap other = some place := by
        simpa [Registry.drop, same] using found
      exact consistent.own other place earlier

theorem Consistent.retune (consistent : registry.Consistent) {fd : Int}
    (watched : registry.kernel.registered fd ≠ none) (events : BitVec 32) :
    (registry.retune fd events).Consistent := by
  have same : ∀ other, (registry.retune fd events).kernel.registered other ≠ none ↔
      registry.kernel.registered other ≠ none := by
    intro other
    by_cases same : other = fd
    · subst other
      simp [Registry.retune, watched]
    · simp [Registry.retune, same]
  exact ⟨fun other => (consistent.keys other).trans (same other).symm,
    fun other registered => consistent.opened other ((same other).mp registered),
    consistent.own⟩

theorem Consistent.log (consistent : registry.Consistent) (element : ChannelElement Nat)
    (result : Int) : (registry.log element result).Consistent :=
  ⟨consistent.keys, consistent.opened, consistent.own⟩

theorem Stored.log (stored : registry.Stored) {fd result : Int}
    (named : registry.fdOf element.channel = some fd)
    (fits : element.type = 1 → 0 ≤ fd → result = 1) :
    (registry.log element result).Stored := by
  intro entry member
  rcases List.mem_append.mp member with early | last
  · exact stored entry early
  · rw [List.mem_singleton.mp last]
    exact ⟨fd, named, fits⟩

/-- One operation on consistent tables keeps them consistent. -/
theorem Applied.outcome (applied : Applied registry element channel next)
    (place : registry.channels[element.channel]? = some channel)
    (consistent : registry.Consistent)
    (fresh : ∀ fd, registry.addedFd element = some fd → registry.channelMap fd = none) :
    Outcome registry [element] next := by
  have named := fdOf_eq place
  cases applied with
  | ignored other =>
    exact ⟨consistent, rfl, rfl, fun _ free _ => free, fun _ watched _ => watched, id⟩
  | skipped result refused =>
    refine ⟨consistent.log _ _, rfl, rfl, fun _ free _ => free, fun _ watched _ => watched, ?_⟩
    intro stored
    apply stored.log named
    intro type usable
    have absent := fresh _ (addedFd_eq_some.mpr ⟨type, named, usable⟩)
    exact absurd absent (refused type usable)
  | added type usable free opened missing =>
    have is := addedFd_eq_some.mpr ⟨type, named, usable⟩
    refine ⟨(consistent.enter named opened _).log _ _, rfl, rfl, ?_, ?_, ?_⟩
    · intro fd absent others
      have differs : fd ≠ channel.fd := by
        intro same
        apply others
        simp [is, same]
      simpa [log, enter, differs] using absent
    · intro fd watched _
      by_cases same : fd = channel.fd
      · simp [log, enter, same]
      · simpa [log, enter, same] using watched
    · intro stored
      have entered : (registry.enter channel.fd element.channel channel.epollEvents).Stored :=
        stored
      exact entered.log named fun _ _ => rfl
  | removed type number mapped found mappedPlace watched =>
    have own := consistent.own _ _ found
    have same : mapped.fd = channel.fd :=
      Option.some.inj ((fdOf_eq mappedPlace).symm.trans own)
    rw [same]
    refine ⟨(consistent.drop _).log _ _, rfl, rfl, ?_, ?_, ?_⟩
    · intro fd absent _
      by_cases here : fd = channel.fd
      · simp [log, drop, here]
      · simpa [log, drop, here] using absent
    · intro fd watched others
      have differs : fd ≠ channel.fd := by
        intro same
        exact others element (List.mem_singleton_self _) type (same ▸ named)
      simpa [log, drop, differs] using watched
    · intro stored
      have dropped : (registry.drop channel.fd channel.fd).Stored := stored
      exact dropped.log named fun _ _ => rfl
  | updated type found watched =>
    refine ⟨(consistent.retune watched _).log _ _, rfl, rfl, fun _ free _ => free, ?_, ?_⟩
    · intro fd earlier _
      by_cases same : fd = channel.fd
      · simp [log, retune, same]
      · simpa [log, retune, same] using earlier
    · intro stored
      have retuned : (registry.retune channel.fd channel.epollEvents).Stored := stored
      apply retuned.log named
      intro add
      rw [type] at add
      cases add

/-- After the first operation the tables await the others. -/
theorem Awaits.tail {elements : List (ChannelElement Nat)}
    (awaits : registry.Awaits (element :: elements)) (first : Outcome registry [element] next) :
    next.Awaits elements := by
  have names := fdOf_congr first.channels
  have added := addedFd_congr names
  have parts : (element :: elements).filterMap registry.addedFd =
      [element].filterMap registry.addedFd ++ elements.filterMap registry.addedFd :=
    List.filterMap_append (l := [element])
  have distinct := awaits.distinct
  rw [parts, List.nodup_append'] at distinct
  obtain ⟨_, once, apart⟩ := distinct
  constructor
  · intro other member
    rw [names]
    exact awaits.known other (List.mem_cons_of_mem _ member)
  · intro fd member
    rw [added] at member
    have whole : fd ∈ (element :: elements).filterMap registry.addedFd := by
      rw [parts]
      exact List.mem_append_right _ member
    obtain ⟨opened, absent⟩ := awaits.fresh fd whole
    rw [first.opened]
    exact ⟨opened, first.free fd absent fun earlier => apart earlier member⟩
  · rw [added]
    exact once

/-- Consistent tables carry out all operations they await. -/
theorem handleAll_outcome {elements : List (ChannelElement Nat)}
    (consistent : registry.Consistent) (awaits : registry.Awaits elements) :
    ∃ next, registry.handleAll elements = .ok next ∧ Outcome registry elements next := by
  induction elements generalizing registry with
  | nil => exact ⟨registry, rfl, .refl consistent⟩
  | cons element elements ih =>
    have head : ∀ fd, registry.addedFd element = some fd →
        fd ∈ (element :: elements).filterMap registry.addedFd := by
      intro fd is
      exact List.mem_filterMap.mpr ⟨element, List.mem_cons_self .., is⟩
    have known := awaits.known element (List.mem_cons_self ..)
    obtain ⟨middle, success⟩ := handlePending_returns consistent known
      fun fd is => (awaits.fresh fd (head fd is)).1
    obtain ⟨channel, place, applied⟩ := handlePending_applied success
    have first := applied.outcome place consistent fun fd is => (awaits.fresh fd (head fd is)).2
    obtain ⟨next, others, rest⟩ := ih first.consistent (awaits.tail first)
    exact ⟨next, bind_eq_ok.mpr ⟨middle, success, others⟩, first.trans rest⟩

/-- The same tables, with other descriptors open and other channels known as well. -/
structure Extends (registry next : Registry) : Prop where
  names : ∀ number fd, registry.fdOf number = some fd → next.fdOf number = some fd
  channelMap : next.channelMap = registry.channelMap
  registered : next.kernel.registered = registry.kernel.registered
  opened : ∀ fd, registry.kernel.opened fd = true → next.kernel.opened fd = true
  handled : next.handled = registry.handled

theorem Consistent.extend (consistent : registry.Consistent) (more : Extends registry next) :
    next.Consistent := by
  constructor
  · intro fd
    rw [more.channelMap, more.registered]
    exact consistent.keys fd
  · intro fd
    rw [more.registered]
    exact fun registered => more.opened fd (consistent.opened fd registered)
  · intro fd number
    rw [more.channelMap]
    exact fun found => more.names number fd (consistent.own fd number found)

theorem Stored.extend (stored : registry.Stored) (more : Extends registry next) :
    next.Stored := by
  intro entry
  rw [more.handled]
  intro member
  obtain ⟨fd, named, fits⟩ := stored entry member
  exact ⟨fd, more.names _ _ named, fits⟩

/-- What known channels ask to add stays the same. -/
theorem Extends.added (more : Extends registry next) {elements : List (ChannelElement Nat)}
    (known : ∀ element ∈ elements, registry.fdOf element.channel ≠ none) :
    elements.filterMap next.addedFd = elements.filterMap registry.addedFd := by
  apply List.filterMap_congr
  intro element member
  obtain ⟨fd, named⟩ := Option.ne_none_iff_exists'.mp (known element member)
  unfold addedFd
  rw [more.names _ _ named, named]

theorem Awaits.extend {elements : List (ChannelElement Nat)} (awaits : registry.Awaits elements)
    (more : Extends registry next) : next.Awaits elements := by
  have added := more.added awaits.known
  constructor
  · intro element member
    obtain ⟨fd, named⟩ := Option.ne_none_iff_exists'.mp (awaits.known element member)
    exact Option.ne_none_iff_exists'.mpr ⟨fd, more.names _ _ named⟩
  · intro fd member
    rw [added] at member
    obtain ⟨opened, absent⟩ := awaits.fresh fd member
    rw [more.channelMap]
    exact ⟨more.opened fd opened, absent⟩
  · rw [added]
    exact awaits.distinct

end Registry

end Yolanda.App
