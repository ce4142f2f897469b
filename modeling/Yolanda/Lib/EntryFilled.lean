import Yolanda.Lib.Activation

/-! Both dispatchers of the C library report only descriptors that have an entry. -/

namespace Yolanda.Lib

open App (Channel Kernel)
open Foundation

namespace PollSet

variable {set : PollSet} {fd : Nat} {channel : Channel}

/-- The descriptors in the slots. -/
def keys (set : PollSet) : List Nat :=
  set.eventSet.filterMap Pollfd.key

private theorem watches_of_nodup (single : set.keys.Nodup) :
    ∃ table, set.Watches table ∧ ∀ fd, fd ∈ set.keys ↔ table fd ≠ none := by
  have tabled : set.Watches _ := Tabulates.of_nodup single
  refine ⟨_, tabled, fun fd => ?_⟩
  unfold keys
  rw [List.mem_filterMap]
  constructor
  · intro ⟨slot, member, held⟩
    exact tabled.ne_none member held
  · exact tabled.exists_slot

theorem add_keys (single : set.keys.Nodup) (positive : 0 ≤ channel.fd)
    (fresh : channel.fd.toNat ∉ set.keys) : (set.add channel).keys.Nodup ∧
      ∀ fd ∈ (set.add channel).keys, fd ∈ set.keys ∨ fd = channel.fd.toNat := by
  obtain ⟨table, watches, domain⟩ := watches_of_nodup single
  by_cases room : ∃ slot ∈ set.eventSet, slot.key = none
  · have empty := not_not.mp (mt (domain _).mpr fresh)
    have filled := add_watches watches positive empty room
    refine ⟨filled.single, ?_⟩
    intro fd member
    obtain ⟨slot, inside, held⟩ := List.mem_filterMap.mp member
    have defined := Tabulates.ne_none filled inside held
    by_cases here : fd = channel.fd.toNat
    · exact .inr here
    · rw [Function.update_of_ne here] at defined
      exact .inl ((domain fd).mpr defined)
  · rw [add_full fun slot member free => room ⟨slot, member, free⟩]
    exact ⟨single, fun fd member => .inl member⟩

theorem del_keys (single : set.keys.Nodup) (positive : 0 ≤ channel.fd) :
    (set.del channel).keys.Nodup ∧
      ∀ fd ∈ (set.del channel).keys, fd ∈ set.keys ∧ fd ≠ channel.fd.toNat := by
  obtain ⟨table, watches, domain⟩ := watches_of_nodup single
  have cleared := del_watches watches positive
  refine ⟨cleared.single, ?_⟩
  intro fd member
  obtain ⟨slot, inside, held⟩ := List.mem_filterMap.mp member
  have defined := Tabulates.ne_none cleared inside held
  by_cases here : fd = channel.fd.toNat
  · rw [here, Function.update_self] at defined
    exact absurd rfl defined
  · rw [Function.update_of_ne here] at defined
    exact ⟨(domain fd).mpr defined, here⟩

@[simp] theorem update_keys (set : PollSet) (channel : Channel) :
    (set.update channel).keys = set.keys := by
  have keeps (slot : Pollfd) : ({ slot with events := pollEvents channel } : Pollfd).key =
      slot.key := rfl
  exact filterMap_modifyFirst keeps set.eventSet

@[simp] theorem poll_keys (set : PollSet) (conditions : Int → Conditions) :
    (set.poll conditions).keys = set.keys := by
  unfold keys poll
  rw [List.filterMap_map]
  rfl

@[simp] theorem init_keys (memory : PollSet) : (init memory).keys = [] := by
  apply List.filterMap_eq_nil_iff.mpr
  intro slot member
  obtain ⟨old, _, rfl⟩ := List.mem_map.mp member
  rfl

end PollSet

/-- A slot with a descriptor is behind every activation. -/
theorem poll_next {set : PollSet} {batch later : Nat × Nat} {fd : Int} {readable writable : Bool}
    (comes : pollBackend.next set batch = some (.activate fd readable writable, later)) :
    0 ≤ fd ∧ fd.toNat ∈ set.keys := by
  simp only [pollBackend] at comes
  split at comes
  · cases comes
  split at comes
  · cases comes
  case h_2 pollfd found =>
    split at comes
    · cases comes
    case isFalse taken =>
      split at comes
      · cases comes
        have held : pollfd.key = some pollfd.fd.toNat := if_neg taken
        exact ⟨Int.not_lt.mp taken,
          List.mem_filterMap.mpr ⟨pollfd, List.mem_of_getElem? found, held⟩⟩
      · cases comes

/-- The slots are read as they are when `poll_dispatch` comes to them. -/
def pollLawful : Lawful pollBackend where
  valid set := set.keys.Nodup
  watched set fd := fd ∈ set.keys
  sound _ := True
  asks set _ fd := fd ∈ set.keys
  add := by
    intro set channel result later single positive fresh made
    cases made
    exact PollSet.add_keys single positive fresh
  del := by
    intro set channel result later single positive made
    cases made
    exact PollSet.del_keys single positive
  update := by
    intro set channel result later single made
    cases made
    rw [PollSet.update_keys]
    exact ⟨single, fun _ member => member⟩
  close := fun single _ => ⟨single, fun _ member => member⟩
  takeDescriptor := fun single _ => ⟨single, fun _ member => member⟩
  stops := fun _ _ => ⟨Safe.ok _, Safe.ok _, Safe.ok _⟩
  wait := by
    intro set conditions later batch single reports
    cases reports
    rw [PollSet.poll_keys]
    exact ⟨single, trivial, fun _ member => member, fun _ member => member⟩
  next := fun _ comes => poll_next comes
  rest := fun _ _ => ⟨trivial, fun _ _ member => .inl member⟩
  keep := .inl

namespace Epoll

variable {kernel later : Kernel} {channel : Channel} {result : Int}

/-- What a call of `epoll_ctl` that succeeds has done. -/
theorem control_ok {operation : App.EpollControl}
    (made : control kernel operation channel = .ok (result, later)) :
    later.registered = Function.update kernel.registered channel.fd
        (if operation = .del then none else some channel.epollEvents) ∧
      (operation ≠ .add → kernel.registered channel.fd ≠ none) := by
  unfold control Kernel.epollCtl at made
  split at made
  case h_1 changed found =>
    cases made
    split at found
    case isTrue =>
      split at found
      case h_1 =>
        cases found
        exact ⟨rfl, fun other => absurd rfl other⟩
      case h_2 registered =>
        cases found
        exact ⟨rfl, fun _ => by rw [registered]; exact nofun⟩
      case h_3 registered =>
        cases found
        exact ⟨rfl, fun _ => by rw [registered]; exact nofun⟩
      case h_4 => cases found
    case isFalse => cases found
  case h_2 => cases made

theorem next_cons {event : App.EpollEvent} {batch rest : List App.EpollEvent} {action : Action}
    (comes : next kernel (event :: batch) = some (action, rest)) : rest = batch := by
  simp only [next] at comes
  split at comes
  · cases comes
    rfl
  · cases comes
    rfl

/-- An event without error and hang-up is passed on. -/
theorem next_activate {event : App.EpollEvent} {batch rest : List App.EpollEvent} {fd : Int}
    {readable writable : Bool}
    (comes : next kernel (event :: batch) = some (.activate fd readable writable, rest)) :
    event.fd = fd ∧ ¬ event.failed = true := by
  simp only [next] at comes
  split at comes
  case isTrue => cases comes
  case isFalse healthy =>
    cases comes
    exact ⟨rfl, healthy⟩

theorem control_safe (kernel : Kernel) (operation : App.EpollControl) (channel : Channel) :
    Safe (control kernel operation channel) := by
  unfold control
  split
  · exact Safe.ok _
  · exact Safe.error nofun nofun

end Epoll

/-- Of what `epoll_wait` has reported only the rest of the list counts. -/
def epollLawful : Lawful epollBackend where
  valid kernel := ∀ fd, kernel.registered fd ≠ none → 0 ≤ fd
  watched kernel fd := kernel.registered fd ≠ none
  sound batch := (batch.map App.EpollEvent.fd).Nodup ∧ ∀ event ∈ batch, 0 ≤ event.fd
  asks _ batch fd := ∃ event ∈ batch, event.fd = fd
  add := by
    intro kernel channel result later valid positive _ made
    rw [(Epoll.control_ok made).1]
    constructor
    · intro fd registered
      by_cases here : fd = channel.fd
      · omega
      · rw [Function.update_of_ne here] at registered
        exact valid fd registered
    · intro fd registered
      by_cases here : (fd : Int) = channel.fd
      · exact .inr (by omega)
      · rw [Function.update_of_ne here] at registered
        exact .inl registered
  del := by
    intro kernel channel result later valid positive made
    rw [(Epoll.control_ok made).1, if_pos rfl]
    constructor
    · intro fd registered
      by_cases here : fd = channel.fd
      · omega
      · rw [Function.update_of_ne here] at registered
        exact valid fd registered
    · intro fd registered
      by_cases here : (fd : Int) = channel.fd
      · rw [here, Function.update_self] at registered
        exact absurd rfl registered
      · rw [Function.update_of_ne here] at registered
        exact ⟨registered, by omega⟩
  update := by
    intro kernel channel result later valid made
    obtain ⟨changed, known⟩ := Epoll.control_ok made
    have before (fd : Int) (registered : later.registered fd ≠ none) :
        kernel.registered fd ≠ none := by
      by_cases here : fd = channel.fd
      · exact here ▸ known nofun
      · rwa [changed, Function.update_of_ne here] at registered
    exact ⟨fun fd registered => valid fd (before fd registered),
      fun fd registered => before fd registered⟩
  close := by
    intro kernel valid closed
    have fewer (fd : Int) (registered : (kernel.close closed).registered fd ≠ none) :
        kernel.registered fd ≠ none := by
      by_cases here : fd = closed
      · rw [here] at registered
        exact absurd (Function.update_self ..) registered
      · simpa only [Kernel.close, Function.update_of_ne here] using registered
    exact ⟨fun fd registered => valid fd (fewer fd registered),
      fun fd registered => fewer fd registered⟩
  takeDescriptor := fun valid _ => ⟨valid, fun _ registered => registered⟩
  stops := fun kernel channel => ⟨Epoll.control_safe kernel .add channel,
    Epoll.control_safe kernel .del channel, Epoll.control_safe kernel .mod channel⟩
  wait := by
    intro kernel report later batch valid reports
    simp only [epollBackend, Epoll.wait] at reports
    split at reports
    case isTrue given =>
      cases reports
      obtain ⟨distinct, _, ready⟩ := given
      have registered (fd) (member : fd ∈ report.1) : kernel.registered fd ≠ none := by
        intro absent
        apply ready fd member
        simp only [Epoll.reported, absent]
      refine ⟨valid, ⟨?_, ?_⟩, fun _ held => held, ?_⟩
      · rw [List.map_map]
        exact (List.map_id report.1).symm ▸ distinct
      · intro event member
        obtain ⟨fd, inside, rfl⟩ := List.mem_map.mp member
        exact valid fd (registered fd inside)
      · rintro fd ⟨event, member, place⟩
        obtain ⟨other, inside, rfl⟩ := List.mem_map.mp member
        exact place ▸ registered other inside
    case isFalse => cases reports
  next := by
    intro kernel batch fd readable writable later sound comes
    cases batch with
    | nil => cases comes
    | cons event batch =>
      obtain ⟨place, _⟩ := @Epoll.next_activate kernel _ _ _ _ _ _ comes
      have positive := sound.2 event (List.mem_cons_self ..)
      exact ⟨by omega, event, List.mem_cons_self .., by omega⟩
  rest := by
    intro kernel batch action later sound comes
    cases batch with
    | nil => cases comes
    | cons event batch =>
      have left := @Epoll.next_cons kernel _ _ _ _ comes
      subst left
      obtain ⟨fresh, distinct⟩ := List.nodup_cons.mp sound.1
      refine ⟨⟨distinct, fun other member => sound.2 other (List.mem_cons_of_mem _ member)⟩, ?_⟩
      rintro _ fd ⟨other, member, place⟩
      refine .inr ⟨⟨other, List.mem_cons_of_mem _ member, place⟩, ?_⟩
      rintro served readable writable rfl same
      obtain ⟨here, _⟩ := @Epoll.next_activate kernel _ _ _ _ _ _ comes
      have positive := sound.2 event (List.mem_cons_self ..)
      apply fresh
      rw [show event.fd = other.fd by omega]
      exact List.mem_map_of_mem member
  keep := .inr

/-- For every run with either dispatcher: `channel_event_activate` finds the channel of every
descriptor it is called for, as long as no read callback takes its channel away when the
same event has reported the descriptor writable. A run that breaks this does not succeed. -/
theorem entries_filled (channels : List Channel) (memory : PollSet) (opened : Int → Bool) :
    FilledWhileKept pollBackend (.start (.init memory) channels) ∧
      FilledWhileKept epollBackend (.start ⟨opened, fun _ => none⟩ channels) := by
  constructor
  · have single : pollLawful.valid (.init memory) := by simp [pollLawful]
    have unwatched (fd : Nat) : ¬ pollLawful.watched (.init memory) fd := by simp [pollLawful]
    exact (Following.start single unwatched channels).filled
  · have valid : epollLawful.valid ⟨opened, fun _ => none⟩ :=
      fun _ registered => absurd rfl registered
    have unwatched (fd : Nat) : ¬ epollLawful.watched ⟨opened, fun _ => none⟩ fd :=
      fun registered => registered rfl
    exact (Following.start valid unwatched channels).filled

/-- A connection with output pending. -/
def pendingOutput : Channel :=
  { App.connectionChannel 0 5 with
    events := App.eventRead ||| App.eventWrite }

def failure : Except Stop α → Option Stop
  | .ok _ => none
  | .error stop => some stop

theorem eq_error_of_failure {result : Except Stop α} (fails : failure result = some stop) :
    result = .error stop := by
  cases result with
  | ok value => cases fails
  | error other =>
    cases fails
    rfl

/-- The peer of a connection with pending output closes: the read callback removes the channel,
and the write activation of the same event reads through the empty entry. -/
theorem peer_closes_with_output :
    run (Running.step pollBackend)
      (.start (.init ⟨List.replicate initPollSize ⟨0, 0, 0⟩, List.length_replicate⟩)
        [pendingOutput])
      [.queueAdd 0 true, .handlePending, .wait fun _ => ⟨true, true, false, false⟩,
        .serve [.remove] []] = .error .emptySlot ∧
    run (Running.step epollBackend) (.start ⟨fun fd => fd = 5, fun _ => none⟩ [pendingOutput])
      [.queueAdd 0 true, .handlePending, .wait ⟨[5], fun _ => ⟨true, true, false, false⟩⟩,
        .serve [.remove] []] = .error .emptySlot := by
  constructor
  · exact eq_error_of_failure (by decide +kernel)
  · rfl

end Yolanda.Lib
