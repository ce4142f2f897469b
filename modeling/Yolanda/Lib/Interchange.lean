import Yolanda.Lib.EntryFilled
import Yolanda.Lib.RoundStep

/-! One round of `poll_dispatch` and one of `epoll_dispatch` from the same table, under the
same conditions of the descriptors. -/

namespace Yolanda.Lib

open App (Channel Kernel)
open Foundation

namespace ChannelTable

/-- The epoll instance that watches the whole table. -/
def kernel (table : ChannelTable) : Kernel where
  opened fd := 0 ≤ fd && (table.channelOf fd.toNat).isSome
  registered fd := if fd < 0 then none else (table.channelOf fd.toNat).map Channel.epollEvents

/-- What a channel asks for and its descriptor is ready for, to read and to write. -/
def bits (table : ChannelTable) (conditions : Int → Conditions) (fd : Nat) : Bool × Bool :=
  match table.channelOf fd with
  | none => (false, false)
  | some channel =>
    ((conditions fd).readable && channel.events &&& App.eventRead ≠ 0,
      (conditions fd).writable && channel.events &&& App.eventWrite ≠ 0)

/-- The activations when some more descriptors have been served. -/
def served (table : ChannelTable) (conditions : Int → Conditions) (mode : Nat → Bool × Bool)
    (fds : List Nat) (fd : Nat) : Bool × Bool :=
  if fd ∈ fds then table.bits conditions fd else mode fd

end ChannelTable

/-- A table with the slots of a poll dispatcher: each slot that is not free holds the
descriptor and the events of a channel of the table. -/
structure PolledTable extends ChannelTable where
  set : PollSet
  single : set.keys.Nodup
  holds : ∀ slot ∈ set.eventSet, ∀ fd, slot.key = some fd →
    ∃ channel, toChannelTable.channelOf fd = some channel ∧ slot.events = pollEvents channel

/-- What `epoll_wait` reports of a table: descriptors that have events, all of them unless the
array is full. -/
structure Reported (table : ChannelTable) (conditions : Int → Conditions) where
  fds : List Nat
  distinct : fds.Nodup
  room : fds.length ≤ maxEvents
  ready : ∀ fd ∈ fds, Epoll.reported table.kernel conditions fd ≠ 0
  complete : ∀ fd : Nat, Epoll.reported table.kernel conditions fd ≠ 0 →
    fd ∈ fds ∨ fds.length = maxEvents

def pollRound (table : PolledTable) (conditions : Int → Conditions) (callbacks : Int → Callbacks) :
    Except Stop (Dispatch PollSet) :=
  dispatchRound pollBackend callbacks initPollSize (table.dispatch table.set) conditions

def epollRound (table : ChannelTable) (conditions : Int → Conditions)
    (report : Reported table conditions) (callbacks : Int → Callbacks) :
    Except Stop (Dispatch Kernel) :=
  dispatchRound epollBackend callbacks maxEvents (table.dispatch table.kernel)
    (report.fds.map Int.ofNat, conditions)

/-- Both rounds return, with the same calls of `channel_event_activate` for each descriptor, the
same descriptors closed, and the same channels left. -/
def Agree (poll : Except Stop (Dispatch PollSet)) (epoll : Except Stop (Dispatch Kernel)) : Prop :=
  ∃ polled epolled, poll = .ok polled ∧ epoll = .ok epolled ∧
    polled.activated = epolled.activated ∧ polled.closed.Perm epolled.closed ∧
    polled.channelMap.lookup = epolled.channelMap.lookup ∧ polled.channels = epolled.channels

/-- No reported descriptor has an error or a hang-up, or loses its channel between reading and
writing. A descriptor that is ready for what its channel asks is in a slot and reported, or
neither. -/
structure Alike (table : PolledTable) (conditions : Int → Conditions)
    (report : Reported table.toChannelTable conditions) (callbacks : Int → Callbacks) : Prop where
  healthy : ∀ fd ∈ report.fds, (conditions fd).error = false ∧ (conditions fd).hangUp = false
  kept : ∀ fd ∈ report.fds, table.bits conditions fd = (true, true) → ¬ table.Torn callbacks fd
  held : ∀ fd, table.bits conditions fd ≠ (false, false) → (fd ∈ table.set.keys ↔ fd ∈ report.fds)

/-- The reading bit, the writing bit and the presence of a report in the two encodings. -/
private theorem poll_bits : ∀ reads writes readable writable error hangUp : Bool,
    let events : BitVec 16 := (if reads then pollRdNorm else 0) ||| (if writes then pollWrNorm else 0)
    let revents := PollSet.revents events ⟨readable, writable, error, hangUp⟩
    decide (revents &&& pollRdNorm ≠ 0) = (readable && reads) ∧
      decide (revents &&& pollWrNorm ≠ 0) = (writable && writes) ∧
      (revents.toInt > 0 ↔ revents ≠ 0) := by
  decide

private theorem epoll_bits : ∀ reads writes readable writable error hangUp : Bool,
    let events : BitVec 32 := (if reads then App.epollIn else 0) |||
      (if writes then App.epollOut else 0)
    let revents := Epoll.revents events ⟨readable, writable, error, hangUp⟩
    decide (revents &&& App.epollIn ≠ 0) = (readable && reads) ∧
      decide (revents &&& App.epollOut ≠ 0) = (writable && writes) ∧
      App.EpollEvent.failed ⟨0, revents⟩ = (error || hangUp) ∧
      (revents = 0 ↔ (readable && reads, writable && writes, error, hangUp) =
        (false, false, false, false)) := by
  decide

/-- A poll dispatcher leaves the slots of other descriptors as they are. -/
def pollFrame : Frame pollBackend.toEventDispatcher where
  holds _ _ := True
  apart fd before later := ∀ (index : Nat) (slot : Pollfd), before.eventSet[index]? = some slot →
    slot.key ≠ some fd → later.eventSet[index]? = some slot
  refl _ _ _ _ found _ := found
  trans first second index slot found differ := second index slot (first index slot found differ)
    differ
  del {data channel fd} _ place := by
    refine ⟨data.del channel, rfl, ?_⟩
    intro index slot found differ
    apply getElem?_modifyFirst found
    rw [decide_eq_true_iff, place, ← slot.key_iff]
    exact differ
  update {data channel fd} _ place := by
    refine ⟨data.update channel, rfl, ?_, trivial⟩
    intro index slot found differ
    apply getElem?_modifyFirst found
    rw [decide_eq_true_iff, place, ← slot.key_iff]
    exact differ

/-- `epoll_ctl` for an open descriptor in the epoll instance succeeds, and changes no other. -/
def epollFrame : Frame epollBackend.toEventDispatcher where
  holds kernel fd := kernel.opened fd = true ∧ kernel.registered fd ≠ none
  apart fd before later := later.opened = before.opened ∧
    ∀ other : Int, other ≠ fd → later.registered other = before.registered other
  refl _ _ := ⟨rfl, fun _ _ => rfl⟩
  trans first second := ⟨second.1.trans first.1,
    fun other differ => (second.2 other differ).trans (first.2 other differ)⟩
  del {kernel channel fd} held place := by
    obtain ⟨events, registered⟩ := Option.ne_none_iff_exists'.mp held.2
    refine ⟨{ kernel with registered := Function.update kernel.registered fd none }, ?_, rfl,
      fun other differ => Function.update_of_ne differ ..⟩
    simp [epollBackend, Epoll.control, Kernel.epollCtl, place, held.1, registered]
  update {kernel channel fd} held place := by
    obtain ⟨events, registered⟩ := Option.ne_none_iff_exists'.mp held.2
    refine ⟨{ kernel with
        registered := Function.update kernel.registered fd (some channel.epollEvents) }, ?_,
      ⟨rfl, fun other differ => Function.update_of_ne differ ..⟩, held.1, ?_⟩
    · simp [epollBackend, Epoll.control, Kernel.epollCtl, place, held.1, registered]
    · simp

/-- How the loop of `dispatch` ends that serves some descriptors. -/
inductive Ends {Data : Type} (table : ChannelTable) (callbacks : Int → Callbacks)
    (conditions : Int → Conditions) (mode : Nat → Bool × Bool) (fds : List Nat)
    (closed : List Int) : Except Stop (Dispatch Data) → Prop where
  | torn {fd} (member : fd ∈ fds) (both : table.bits conditions fd = (true, true))
    (lost : table.Torn callbacks fd) : Ends table callbacks conditions mode fds closed
      (.error .emptySlot)
  | served {later} (kept : ∀ fd ∈ fds, table.bits conditions fd = (true, true) →
      ¬ table.Torn callbacks fd)
    (progress : Progress table callbacks (table.served conditions mode fds) later)
    (same : later.closed = closed) : Ends table callbacks conditions mode fds closed (.ok later)

variable {Data : Type} {table : ChannelTable} {callbacks : Int → Callbacks}
variable {conditions : Int → Conditions} {mode : Nat → Bool × Bool} {fds : List Nat}
variable {closed : List Int} {result : Except Stop (Dispatch Data)} {fd : Nat}
variable {channel : Channel}

namespace ChannelTable

@[simp] theorem served_nil : table.served conditions mode [] = mode := by
  funext fd
  exact if_neg List.not_mem_nil

theorem served_cons : table.served conditions (Function.update mode fd (table.bits conditions fd))
    fds = table.served conditions mode (fd :: fds) := by
  funext asked
  by_cases here : asked = fd
  · subst here
    simp [served]
  · simp [served, here]

end ChannelTable

namespace Ends

/-- A descriptor in front that has kept its channel. -/
theorem cons (kept : ¬ (table.bits conditions fd = (true, true) ∧ table.Torn callbacks fd))
    (ends : Ends table callbacks conditions
      (Function.update mode fd (table.bits conditions fd)) fds closed result) :
    Ends table callbacks conditions mode (fd :: fds) closed result := by
  cases ends with
  | torn member both lost => exact .torn (List.mem_cons_of_mem _ member) both lost
  | served others progress same =>
    rw [ChannelTable.served_cons] at progress
    refine .served ?_ progress same
    intro asked member both lost
    rcases List.mem_cons.mp member with rfl | behind
    · exact kept ⟨both, lost⟩
    · exact others asked behind both lost

/-- A descriptor in front that is ready for nothing its channel asks for. -/
theorem idle (nothing : table.bits conditions fd = (false, false))
    (fresh : mode fd = (false, false)) (ends : Ends table callbacks conditions mode fds closed
      result) : Ends table callbacks conditions mode (fd :: fds) closed result := by
  apply cons
  · rw [nothing]
    exact nofun
  · rw [nothing, ← fresh, Function.update_eq_self]
    exact ends

end Ends

/-- What `poll` has written into the slot of a channel. -/
def Pollfd.Answers (table : ChannelTable) (conditions : Int → Conditions) (slot : Pollfd) : Prop :=
  match slot.key with
  | none => slot.revents = 0
  | some fd => ∃ channel, table.channelOf fd = some channel ∧
      slot.revents = PollSet.revents (pollEvents channel) (conditions fd)

theorem poll_event (place : table.channelOf fd = some channel) :
    let revents := PollSet.revents (pollEvents channel) (conditions fd)
    table.bits conditions fd =
        (decide (revents &&& pollRdNorm ≠ 0), decide (revents &&& pollWrNorm ≠ 0)) ∧
      (revents.toInt > 0 ↔ revents ≠ 0) := by
  have encoded := poll_bits (channel.events &&& App.eventRead ≠ 0)
    (channel.events &&& App.eventWrite ≠ 0) (conditions fd).readable (conditions fd).writable
    (conditions fd).error (conditions fd).hangUp
  simp only [decide_eq_true_eq] at encoded
  obtain ⟨reads, writes, positive⟩ := encoded
  refine ⟨?_, positive⟩
  simp only [ChannelTable.bits, place]
  exact Prod.ext reads.symm writes.symm

variable {dispatch : Dispatch PollSet} {slot : Pollfd} {index ready : Nat}

/-- A slot without events is passed over, unless the loop has ended before it. -/
theorem poll_quiet (found : dispatch.dispatcherData.eventSet[index]? = some slot)
    (quiet : slot.revents = 0) (count : Nat) :
    serveAll pollBackend callbacks (count + 1) dispatch (index, ready) =
      serveAll pollBackend callbacks count dispatch (index + 1, ready) := by
  cases ready with
  | zero => rw [serveAll_done rfl, serveAll_done rfl]
  | succ ready =>
    apply serveAll_skip
    simp [pollBackend, found, quiet]

theorem poll_ready (found : dispatch.dispatcherData.eventSet[index]? = some slot)
    (held : slot.key = some fd) (positive : slot.revents.toInt > 0) :
    pollBackend.next dispatch.dispatcherData (index, ready + 1) =
      some (.activate fd (slot.revents &&& pollRdNorm ≠ 0) (slot.revents &&& pollWrNorm ≠ 0),
        index + 1, ready) := by
  have place := (slot.key_iff fd).mp held
  have taken : ¬ slot.fd < 0 := by omega
  simp [pollBackend, found, place, positive]

/-- The loop of `poll_dispatch` over the slots that are left. -/
theorem poll_ends (rest : List Pollfd) {index : Nat} {dispatch : Dispatch PollSet}
    {mode : Nat → Bool × Bool} (progress : Progress table callbacks mode dispatch)
    (slots : ∀ (offset : Nat) slot, rest[offset]? = some slot →
      dispatch.dispatcherData.eventSet[index + offset]? = some slot)
    (answers : ∀ slot ∈ rest, slot.Answers table conditions)
    (single : (rest.filterMap Pollfd.key).Nodup)
    (fresh : ∀ fd ∈ rest.filterMap Pollfd.key, mode fd = (false, false)) :
    Ends table callbacks conditions mode (rest.filterMap Pollfd.key) dispatch.closed
      (serveAll pollBackend callbacks rest.length dispatch
        (index, rest.countP fun slot => slot.revents ≠ 0)) := by
  induction rest generalizing index dispatch mode with
  | nil =>
    refine .served nofun ?_ rfl
    rwa [List.filterMap_nil, ChannelTable.served_nil]
  | cons slot rest ih =>
    have found : dispatch.dispatcherData.eventSet[index]? = some slot := slots 0 slot rfl
    have later (offset : Nat) (other : Pollfd) (place : rest[offset]? = some other) :
        dispatch.dispatcherData.eventSet[index + 1 + offset]? = some other := by
      have behind := slots (offset + 1) other place
      rwa [Nat.add_right_comm, Nat.add_assoc]
    have answers' (other) (member : other ∈ rest) :=
      answers other (List.mem_cons_of_mem _ member)
    have answer := answers slot (List.mem_cons_self ..)
    unfold Pollfd.Answers at answer
    cases held : slot.key with
    | none =>
      simp only [held] at answer
      rw [List.filterMap_cons_none held] at single fresh ⊢
      rw [List.countP_cons_of_neg (by simp [answer]), List.length_cons, poll_quiet found answer]
      exact ih progress later answers' single fresh
    | some fd =>
      simp only [held] at answer
      obtain ⟨channel, place, returned⟩ := answer
      obtain ⟨bits, positive⟩ := @poll_event table conditions fd channel place
      rw [← returned] at bits positive
      rw [List.filterMap_cons_some held] at single fresh ⊢
      obtain ⟨alone, single⟩ := List.nodup_cons.mp single
      have fresh' (other) (member : other ∈ rest.filterMap Pollfd.key) :=
        fresh other (List.mem_cons_of_mem _ member)
      have idle := fresh fd (List.mem_cons_self ..)
      by_cases quiet : slot.revents = 0
      · rw [List.countP_cons_of_neg (by simp [quiet]), List.length_cons, poll_quiet found quiet]
        apply Ends.idle ?_ idle
        · exact ih progress later answers' single fresh'
        · rw [bits, quiet]
          rfl
      · rw [List.countP_cons_of_pos (by simpa using quiet), List.length_cons]
        have comes := @poll_ready fd dispatch slot index (rest.countP fun slot => slot.revents ≠ 0)
          found held (positive.mpr quiet)
        rcases progress.serve pollFrame place idle trivial comes rest.length with
          ⟨reads, writes, lost, stops⟩ | ⟨kept, next, taken, after, closed, apart⟩
        · rw [stops]
          refine .torn (List.mem_cons_self ..) ?_ lost
          rw [bits, reads, writes]
        · rw [taken, ← closed]
          rw [← bits] at after
          apply Ends.cons
          · rintro ⟨both, lost⟩
            obtain ⟨reads, writes⟩ := Prod.mk.inj (bits.symm.trans both)
            exact kept ⟨reads, writes, lost⟩
          · refine ih after ?_ answers' single ?_
            · intro offset other inside
              apply apart _ other (later offset other inside)
              intro same
              exact alone (List.mem_filterMap.mpr ⟨other, List.mem_of_getElem? inside, same⟩)
            · intro other member
              have differ : other ≠ fd := ne_of_mem_of_not_mem member alone
              rw [Function.update_of_ne differ]
              exact fresh' other member

/-- A descriptor for which `epoll_dispatch` does not call the callbacks. -/
def Conditions.failed (conditions : Conditions) : Bool :=
  conditions.error || conditions.hangUp

theorem epoll_event (place : table.channelOf fd = some channel) :
    let revents := Epoll.reported table.kernel conditions fd
    table.bits conditions fd =
        (decide (revents &&& App.epollIn ≠ 0), decide (revents &&& App.epollOut ≠ 0)) ∧
      App.EpollEvent.failed ⟨fd, revents⟩ = (conditions fd).failed := by
  have encoded := epoll_bits (channel.events &&& App.eventRead ≠ 0)
    (channel.events &&& App.eventWrite ≠ 0) (conditions fd).readable (conditions fd).writable
    (conditions fd).error (conditions fd).hangUp
  simp only [decide_eq_true_eq] at encoded
  obtain ⟨reads, writes, fails, _⟩ := encoded
  have asked : Epoll.reported table.kernel conditions fd =
      Epoll.revents channel.epollEvents (conditions fd) := by
    have positive : ¬ (fd : Int) < 0 := by omega
    simp only [Epoll.reported, ChannelTable.kernel, if_neg positive, Int.toNat_natCast, place,
      Option.map_some]
  intro revents
  refine ⟨?_, ?_⟩
  · simp only [revents, asked, ChannelTable.bits, place]
    exact Prod.ext reads.symm writes.symm
  · simp only [revents, asked]
    exact fails

variable {kernel later : Kernel} {events : List App.EpollEvent} {other : Nat}

theorem epoll_failed (place : table.channelOf fd = some channel)
    (failed : (conditions fd).failed = true) :
    epollBackend.next kernel (⟨fd, Epoll.reported table.kernel conditions fd⟩ :: events) =
      some (.close fd, events) := by
  have fails := (@epoll_event table conditions fd channel place).2.trans failed
  simp only [epollBackend, Epoll.next, fails, if_true]

theorem epoll_ready (place : table.channelOf fd = some channel)
    (healthy : (conditions fd).failed = false) :
    epollBackend.next kernel (⟨fd, Epoll.reported table.kernel conditions fd⟩ :: events) =
      some (.activate fd (table.bits conditions fd).1 (table.bits conditions fd).2, events) := by
  obtain ⟨bits, fails⟩ := @epoll_event table conditions fd channel place
  rw [healthy] at fails
  simp only [epollBackend, Epoll.next, fails, Bool.false_eq_true, if_false, bits]

theorem holds_close (held : epollFrame.holds kernel other) (differ : other ≠ fd) :
    epollFrame.holds (kernel.close fd) other := by
  have apart : (other : Int) ≠ fd := by exact_mod_cast differ
  obtain ⟨opened, registered⟩ := held
  constructor
  · exact (Function.update_of_ne apart ..).trans opened
  · intro absent
    exact registered ((Function.update_of_ne apart ..).symm.trans absent)

theorem holds_apart (held : epollFrame.holds kernel other) (differ : other ≠ fd)
    (apart : epollFrame.apart fd kernel later) : epollFrame.holds later other := by
  have differ' : (other : Int) ≠ fd := by exact_mod_cast differ
  obtain ⟨opened, registered⟩ := held
  constructor
  · rw [apart.1]
    exact opened
  · rw [apart.2 other differ']
    exact registered

/-- The loop of `epoll_dispatch` over the events that are left. -/
theorem epoll_ends (fds : List Nat) {count : Nat} {dispatch : Dispatch Kernel}
    {mode : Nat → Bool × Bool} (enough : fds.length ≤ count)
    (progress : Progress table callbacks mode dispatch) (single : fds.Nodup)
    (fresh : ∀ fd ∈ fds, mode fd = (false, false))
    (watched : ∀ fd ∈ fds, ∃ channel, table.channelOf fd = some channel)
    (holds : ∀ fd ∈ fds, epollFrame.holds dispatch.dispatcherData fd) :
    Ends table callbacks conditions mode (fds.filter fun fd : Nat => !(conditions fd).failed)
      (dispatch.closed ++ (fds.filter fun fd : Nat => (conditions fd).failed).map Int.ofNat)
      (serveAll epollBackend callbacks count dispatch
        (fds.map fun fd : Nat => ⟨fd, Epoll.reported table.kernel conditions fd⟩)) := by
  induction fds generalizing count dispatch mode with
  | nil =>
    rw [List.map_nil, serveAll_done rfl]
    refine .served nofun ?_ (List.append_nil _).symm
    rwa [List.filter_nil, ChannelTable.served_nil]
  | cons fd fds ih =>
    obtain ⟨channel, place⟩ := watched fd (List.mem_cons_self ..)
    obtain ⟨alone, single⟩ := List.nodup_cons.mp single
    have apart (other) (member : other ∈ fds) : other ≠ fd := ne_of_mem_of_not_mem member alone
    have fresh' (other) (member : other ∈ fds) := fresh other (List.mem_cons_of_mem _ member)
    have watched' (other) (member : other ∈ fds) := watched other (List.mem_cons_of_mem _ member)
    have holds' (other) (member : other ∈ fds) := holds other (List.mem_cons_of_mem _ member)
    cases count with
    | zero => cases enough
    | succ count =>
      have enough' := Nat.le_of_succ_le_succ enough
      rw [List.map_cons]
      cases failed : (conditions fd).failed with
      | true =>
        simp only [List.filter_cons, failed, Bool.not_true, Bool.false_eq_true, if_false, if_true,
          List.map_cons]
        rw [List.append_cons, serveAll_close (epoll_failed place failed)]
        have progress' : Progress table callbacks mode { dispatch with
            dispatcherData := dispatch.dispatcherData.close fd
            closed := dispatch.closed ++ [(fd : Int)] } :=
          ⟨progress.channels, progress.lookup, progress.nentries, progress.activated,
            progress.pending⟩
        apply ih enough' progress' single fresh' watched'
        intro other member
        exact holds_close (holds' other member) (apart other member)
      | false =>
        simp only [List.filter_cons, failed, Bool.not_false, Bool.false_eq_true, if_false, if_true]
        rcases progress.serve epollFrame place (fresh fd (List.mem_cons_self ..))
            (holds fd (List.mem_cons_self ..)) (epoll_ready place failed) count with
          ⟨reads, writes, lost, stops⟩ | ⟨kept, next, taken, after, closed, others⟩
        · rw [stops]
          exact .torn (List.mem_cons_self ..) (Prod.ext reads writes) lost
        · rw [taken, ← closed]
          apply Ends.cons
          · rintro ⟨both, lost⟩
            obtain ⟨reads, writes⟩ := Prod.ext_iff.mp both
            exact kept ⟨reads, writes, lost⟩
          · refine ih enough' after single ?_ watched' ?_
            · intro other member
              rw [Function.update_of_ne (apart other member)]
              exact fresh' other member
            · intro other member
              exact holds_apart (holds' other member) (apart other member) others

/-- Before the round no callback has been called. -/
theorem start_progress (table : ChannelTable) (callbacks : Int → Callbacks) (data : Data) :
    Progress table callbacks (fun _ => (false, false)) (table.dispatch data) := by
  have nothing (fd : Nat) : table.performed callbacks (fun _ => (false, false)) fd = [] := by
    unfold ChannelTable.performed
    cases table.channelOf fd with
    | none => rfl
    | some channel => rfl
  refine ⟨?_, ?_, rfl, ?_, rfl⟩
  · intro number
    simp [ChannelTable.dispatch, nothing]
  · intro fd
    rw [nothing, if_neg List.not_mem_nil]
    rfl
  · intro fd
    exact (ite_self _).symm

theorem pollRound_ends (table : PolledTable) (conditions : Int → Conditions)
    (callbacks : Int → Callbacks) :
    Ends table.toChannelTable callbacks conditions (fun _ => (false, false)) table.set.keys []
      (pollRound table conditions callbacks) := by
  have answers (slot) (member : slot ∈ (table.set.poll conditions).eventSet) :
      slot.Answers table.toChannelTable conditions := by
    obtain ⟨before, inside, rfl⟩ := List.mem_map.mp member
    unfold Pollfd.Answers
    cases held : before.key with
    | none =>
      have free : before.fd < 0 := by simpa using (PollSet.free_iff before).mpr held
      simp [Pollfd.key, free]
    | some fd =>
      have place := (before.key_iff fd).mp held
      have taken : ¬ before.fd < 0 := by omega
      obtain ⟨channel, found, same⟩ := table.holds before inside fd held
      simp only [Pollfd.key, same, place, Int.toNat_natCast]
      exact ⟨channel, found, rfl⟩
  have ends := poll_ends (table.set.poll conditions).eventSet
    (start_progress table.toChannelTable callbacks (table.set.poll conditions))
    (fun offset slot found => by rwa [Nat.zero_add]) answers
    (by rw [← PollSet.keys, PollSet.poll_keys]; exact table.single) (fun _ _ => rfl)
  rw [← PollSet.keys, PollSet.poll_keys, (table.set.poll conditions).size] at ends
  exact ends

theorem epollRound_ends (table : ChannelTable) (conditions : Int → Conditions)
    (report : Reported table conditions) (callbacks : Int → Callbacks) :
    Ends table callbacks conditions (fun _ => (false, false))
      (report.fds.filter fun fd : Nat => !(conditions fd).failed)
      ((report.fds.filter fun fd : Nat => (conditions fd).failed).map Int.ofNat)
      (epollRound table conditions report callbacks) := by
  have watched (fd) (member : fd ∈ report.fds) : ∃ channel, table.channelOf fd = some channel := by
    have ready := report.ready fd member
    have positive : ¬ (fd : Int) < 0 := by omega
    simp only [Epoll.reported, ChannelTable.kernel, if_neg positive, Int.toNat_natCast] at ready
    cases place : table.channelOf fd with
    | none =>
      rw [place] at ready
      exact absurd rfl ready
    | some channel => exact ⟨channel, rfl⟩
  have holds (fd) (member : fd ∈ report.fds) : epollFrame.holds table.kernel fd := by
    obtain ⟨channel, place⟩ := watched fd member
    simp [epollFrame, ChannelTable.kernel, place]
  have reports : epollBackend.wait table.kernel (report.fds.map Int.ofNat, conditions) =
      some (table.kernel, report.fds.map fun fd : Nat =>
        ⟨fd, Epoll.reported table.kernel conditions fd⟩) := by
    have distinct : (report.fds.map Int.ofNat).Nodup :=
      report.distinct.map fun _ _ => Int.ofNat.inj
    simp only [epollBackend, Epoll.wait]
    rw [if_pos ⟨distinct, by simpa using report.room, by simpa using report.ready⟩, List.map_map]
    rfl
  have ends := @epoll_ends table callbacks conditions report.fds maxEvents
    (table.dispatch table.kernel) _ report.room (start_progress table callbacks table.kernel)
    report.distinct (fun _ _ => rfl) watched holds
  rw [epollRound, dispatchRound]
  simp only [ChannelTable.dispatch] at ends ⊢
  rw [reports]
  exact ends

theorem calls_injective : ∀ reads writes reads' writes' : Bool,
    calls (reads, writes) = calls (reads', writes') → (reads, writes) = (reads', writes') := by
  decide

/-- Two rounds that have served the same have left the same. -/
theorem Progress.agree {Data Other : Type} {first : Dispatch Data} {second : Dispatch Other}
    (progress : Progress table callbacks mode first)
    (progress' : Progress table callbacks mode second) :
    first.activated = second.activated ∧
      first.channelMap.lookup = second.channelMap.lookup ∧ first.channels = second.channels := by
  refine ⟨?_, ?_, ?_⟩
  · funext fd
    rw [progress.activated, progress'.activated]
  · funext fd
    rw [progress.lookup, progress'.lookup]
  · apply List.ext_getElem?
    intro number
    rw [progress.channels, progress'.channels]

/-- Two rounds with the same calls have served the same. -/
theorem Progress.mode_eq {Data Other : Type} {other : Nat → Bool × Bool} {first : Dispatch Data}
    {second : Dispatch Other} (progress : Progress table callbacks mode first)
    (progress' : Progress table callbacks other second)
    (same : first.activated = second.activated) : mode = other := by
  funext fd
  have positive : ¬ (fd : Int) < 0 := by omega
  have called := congrFun same fd
  rw [progress.activated, progress'.activated, if_neg positive, if_neg positive] at called
  exact calls_injective _ _ _ _ called

/-- Healthy descriptors are all served, and none is closed. -/
theorem filter_healthy (healthy : ∀ fd ∈ fds, (conditions fd).failed = false) :
    (fds.filter fun fd : Nat => !(conditions fd).failed) = fds ∧
      (fds.filter fun fd : Nat => (conditions fd).failed) = [] := by
  constructor
  · apply List.filter_eq_self.mpr
    intro fd member
    rw [healthy fd member, Bool.not_false]
  · apply List.filter_eq_nil_iff.mpr
    intro fd member
    rw [healthy fd member]
    exact Bool.false_ne_true

/-- The same has been served of two lists that hold the same of what is ready. -/
theorem ChannelTable.served_eq_iff {slots : List Nat} :
    table.served conditions (fun _ => (false, false)) slots =
        table.served conditions (fun _ => (false, false)) fds ↔
      ∀ fd, table.bits conditions fd ≠ (false, false) → (fd ∈ slots ↔ fd ∈ fds) := by
  constructor
  · intro served fd ready
    have same := congrFun served fd
    unfold ChannelTable.served at same
    by_cases slot : fd ∈ slots
    · by_cases reported : fd ∈ fds
      · exact iff_of_true slot reported
      · rw [if_pos slot, if_neg reported] at same
        exact absurd same ready
    · by_cases reported : fd ∈ fds
      · rw [if_neg slot, if_pos reported] at same
        exact absurd same.symm ready
      · exact iff_of_false slot reported
  · intro held
    funext fd
    unfold ChannelTable.served
    by_cases ready : table.bits conditions fd = (false, false)
    · rw [ready, ite_self, ite_self]
    · simp only [held fd ready]

/-- For every table, all conditions and every report of `epoll_wait`: the two dispatchers agree
exactly when no reported descriptor has an error or a hang-up, no read callback removes the
channel of a reported descriptor that is also ready to be written, and the slots and the report
hold the same of the descriptors that are ready for what their channels ask. -/
theorem rounds_agree_iff (table : PolledTable) (conditions : Int → Conditions)
    (callbacks : Int → Callbacks) (report : Reported table.toChannelTable conditions) :
    Agree (pollRound table conditions callbacks)
      (epollRound table.toChannelTable conditions report callbacks) ↔
    Alike table conditions report callbacks := by
  have polls := pollRound_ends table conditions callbacks
  have epolls := epollRound_ends table.toChannelTable conditions report callbacks
  constructor
  · rintro ⟨polled, epolled, first, second, activated, closed, _⟩
    rw [first] at polls
    rw [second] at epolls
    cases polls with
    | served _ progress nothing =>
      cases epolls with
      | served kept progress' failed =>
        rw [nothing, failed] at closed
        have none := List.map_eq_nil_iff.mp closed.nil_eq.symm
        have healthy (fd) (member : fd ∈ report.fds) : (conditions fd).failed = false :=
          Bool.eq_false_iff.mpr (List.filter_eq_nil_iff.mp none fd member)
        rw [(filter_healthy healthy).1] at kept progress'
        have served := progress.mode_eq progress' activated
        exact ⟨fun fd member => Bool.or_eq_false_iff.mp (healthy fd member), kept,
          ChannelTable.served_eq_iff.mp served⟩
  · intro alike
    have healthy (fd) (member : fd ∈ report.fds) : (conditions fd).failed = false :=
      Bool.or_eq_false_iff.mpr (alike.healthy fd member)
    obtain ⟨all, none⟩ := filter_healthy healthy
    have served := ChannelTable.served_eq_iff.mpr alike.held
    rw [all, none] at epolls
    generalize pollRound table conditions callbacks = poll at polls ⊢
    generalize epollRound table.toChannelTable conditions report callbacks = epoll at epolls ⊢
    cases polls with
    | torn member both lost =>
      have reported := (alike.held _ (by rw [both]; exact nofun)).mp member
      exact absurd lost (alike.kept _ reported both)
    | served _ progress nothing =>
      cases epolls with
      | torn member both lost => exact absurd lost (alike.kept _ member both)
      | served _ progress' nothing' =>
        rw [served] at progress
        obtain ⟨activated, lookup, channels⟩ := progress.agree progress'
        refine ⟨_, _, rfl, rfl, activated, ?_, lookup, channels⟩
        rw [nothing, nothing']
        exact .refl _

/-- A loop that watches one connection for reading. -/
def oneConnection : PolledTable where
  channels := [App.connectionChannel 0 5]
  channelMap := ⟨List.replicate 5 none ++ [some 0]⟩
  known := by
    intro fd number entry
    have inside := ChannelMap.lt_of_lookup (by rw [entry]; exact nofun)
    by_cases last : fd = 5
    · subst last
      cases entry
      exact ⟨_, rfl, rfl⟩
    · have empty : fd < 5 := Nat.lt_of_le_of_ne (Nat.le_of_lt_succ inside) last
      rw [ChannelMap.lookup, List.getElem?_append_left (by simpa using empty),
        List.getElem?_replicate, if_pos empty] at entry
      cases entry
  set := ⟨⟨5, pollRdNorm, 0⟩ :: List.replicate 1023 ⟨-1, 0, 0⟩,
    congrArg Nat.succ List.length_replicate⟩
  single := by
    have free : (List.replicate 1023 (⟨-1, 0, 0⟩ : Pollfd)).filterMap Pollfd.key = [] := by
      apply List.filterMap_eq_nil_iff.mpr
      intro slot member
      rw [List.eq_of_mem_replicate member]
      rfl
    have held : (⟨5, pollRdNorm, 0⟩ : Pollfd).key = some 5 := rfl
    rw [PollSet.keys, List.filterMap_cons_some held, free]
    exact List.nodup_singleton 5
  holds := by
    intro slot member fd held
    rcases List.mem_cons.mp member with rfl | free
    · cases held
      exact ⟨_, rfl, rfl⟩
    · rw [List.eq_of_mem_replicate free] at held
      cases held

/-- The peer of every connection has hung up. -/
def peerGone : Int → Conditions :=
  fun _ => ⟨false, false, false, true⟩

def peerGoneReport : Reported oneConnection.toChannelTable peerGone where
  fds := [5]
  distinct := List.nodup_singleton 5
  room := by decide
  ready := by
    intro fd member
    cases List.mem_singleton.mp member
    decide
  complete := by
    intro fd ready
    left
    rw [List.mem_singleton]
    by_contra other
    apply ready
    have unwatched : oneConnection.channelOf fd = none := by
      unfold ChannelTable.channelOf
      cases entry : oneConnection.channelMap.lookup fd with
      | none => rfl
      | some number =>
        obtain ⟨channel, found, place⟩ := oneConnection.known fd number entry
        cases number with
        | zero =>
          cases found
          exact absurd (Int.ofNat.inj place).symm other
        | succ number => cases found
    have positive : ¬ (fd : Int) < 0 := by omega
    simp only [Epoll.reported, ChannelTable.kernel, if_neg positive, Int.toNat_natCast, unwatched,
      Option.map_none]

/-- `epoll_dispatch` closes the descriptor of a peer that has hung up, `poll_dispatch` does
not. -/
theorem hang_up_told_apart :
    ¬ Agree (pollRound oneConnection peerGone fun _ => ⟨.keep, .keep⟩)
      (epollRound oneConnection.toChannelTable peerGone peerGoneReport fun _ => ⟨.keep, .keep⟩) := by
  rintro ⟨polled, epolled, first, second, _, closed, _⟩
  have polls := pollRound_ends oneConnection peerGone fun _ => ⟨.keep, .keep⟩
  have epolls := epollRound_ends oneConnection.toChannelTable peerGone peerGoneReport
    fun _ => ⟨.keep, .keep⟩
  rw [first] at polls
  rw [second] at epolls
  cases polls with
  | served _ _ nothing =>
    cases epolls with
    | served _ _ failed =>
      rw [nothing, failed] at closed
      cases closed.nil_eq

end Yolanda.Lib
