import Yolanda.App.EventLoop
import Yolanda.Foundation.Run
import Yolanda.Lib.PollDispatcher

/-! A loop of the C library that dispatches: the calls of `channel_event_activate`, what the
callbacks do to the loop, and the loops of `poll_dispatch` and `epoll_dispatch`. -/

namespace Yolanda.Lib

open App (Channel Kernel)
open Foundation

/-- `struct channel_element`, where `memory` says whether `realloc` succeeds if the addition
calls it. -/
inductive Element where
  | add (channel : Nat) (memory : Bool)
  | remove (channel : Nat)
  | update (channel : Nat)
  deriving DecidableEq, Repr

/-- A call of a callback into its loop. The only channel a callback removes is its own. -/
inductive Effect where
  | add (channel : Nat) (memory : Bool)
  /-- `channel_write_event_enable` and the like, of any channel. -/
  | update (channel : Nat) (events : BitVec 32)
  | remove
  deriving DecidableEq, Repr

/-- A loop with its pending list, the calls of `channel_event_activate` for each descriptor,
and the descriptors the dispatcher has closed. -/
structure Dispatch (Data : Type) extends EventLoop Data where
  pending : List Element
  activated : Int → List (BitVec 32)
  closed : List Int

namespace Dispatch

variable {Data : Type} (dispatcher : EventDispatcher Data)

/-- The body of the loop of `event_loop_handle_pending_channel`. -/
def handlePending (loop : EventLoop Data) : Element → Except Stop (EventLoop Data)
  | .add channel memory => do
    let added ← loop.channelAt channel
    let (_, loop) ← loop.handlePendingAdd dispatcher memory added.fd channel
    return loop
  | .remove channel => do
    let removed ← loop.channelAt channel
    let (_, loop) ← loop.handlePendingRemove dispatcher removed.fd channel
    return loop
  | .update channel => do
    let updated ← loop.channelAt channel
    let (_, loop) ← loop.handlePendingUpdate dispatcher updated.fd channel
    return loop

def handleAll (loop : EventLoop Data) : List Element → Except Stop (EventLoop Data)
  | [] => .ok loop
  | element :: elements => do
    let loop ← handlePending dispatcher loop element
    handleAll loop elements

/-- `event_loop_handle_pending_channel` -/
def handlePendingChannel (dispatch : Dispatch Data) : Except Stop (Dispatch Data) := do
  let loop ← handleAll dispatcher dispatch.toEventLoop dispatch.pending
  return { dispatch with
    toEventLoop := loop
    pending := [] }

/-- `event_loop_do_channel_event` in the thread of the loop. -/
def doChannelEvent (dispatch : Dispatch Data) (element : Element) : Except Stop (Dispatch Data) :=
  handlePendingChannel dispatcher { dispatch with pending := dispatch.pending ++ [element] }

/-- What a callback of the channel `own` does to the loop. -/
def perform (own : Nat) (dispatch : Dispatch Data) : Effect → Except Stop (Dispatch Data)
  | .add channel memory => doChannelEvent dispatcher dispatch (.add channel memory)
  | .update channel events =>
    let changed := { dispatch with toEventLoop := dispatch.setEvents channel events }
    doChannelEvent dispatcher changed (.update channel)
  | .remove => doChannelEvent dispatcher dispatch (.remove own)

def performAll (own : Nat) (dispatch : Dispatch Data) :
    List Effect → Except Stop (Dispatch Data)
  | [] => .ok dispatch
  | effect :: effects => do
    let dispatch ← perform dispatcher own dispatch effect
    performAll own dispatch effects

def record (dispatch : Dispatch Data) (fd : Int) (revents : BitVec 32) : Dispatch Data :=
  { dispatch with
    activated := Function.update dispatch.activated fd (dispatch.activated fd ++ [revents]) }

/-- `channel_event_activate`, with what the callbacks do if they are called. -/
def channelEventActivate (reads writes : List Effect) (dispatch : Dispatch Data) (fd : Int)
    (revents : BitVec 32) : Except Stop (Dispatch Data) := do
  let dispatch := dispatch.record fd revents
  if fd < 0 then return dispatch
  else if fd ≥ dispatch.channelMap.nentries then return dispatch
  else
    match ← dispatch.channelMap.read fd.toNat with
    | none => throw .emptySlot
    | some own =>
      let channel ← dispatch.channelAt own
      if fd ≠ channel.fd then throw .assertion
      else
        let dispatch ← (if revents &&& App.eventRead ≠ 0 ∧ channel.eventReadCallback.isSome then
          performAll dispatcher own dispatch reads else return dispatch)
        if revents &&& App.eventWrite ≠ 0 ∧ channel.eventWriteCallback.isSome then
          performAll dispatcher own dispatch writes
        else return dispatch

/-- What both dispatchers do for a descriptor that is reported readable or writable. -/
def activateReady (reads writes : List Effect) (dispatch : Dispatch Data) (fd : Int)
    (readable writable : Bool) : Except Stop (Dispatch Data) := do
  let dispatch ← (if readable then
    channelEventActivate dispatcher reads writes dispatch fd App.eventRead else return dispatch)
  if writable then channelEventActivate dispatcher reads writes dispatch fd App.eventWrite
  else return dispatch

variable {dispatcher} {reads writes : List Effect} {dispatch : Dispatch Data} {fd : Int}
variable {own : Nat} {channel : Channel}

/-- The read activation of a descriptor with an entry. -/
theorem activate_read (positive : 0 ≤ fd) (entry : dispatch.channelMap.lookup fd.toNat = some own)
    (found : dispatch.channels[own]? = some channel) (place : channel.fd = fd) :
    channelEventActivate dispatcher reads writes dispatch fd App.eventRead =
      if channel.eventReadCallback.isSome then
        performAll dispatcher own (dispatch.record fd App.eventRead) reads
      else .ok (dispatch.record fd App.eventRead) := by
  have inside := ChannelMap.lt_of_lookup (by rw [entry]; exact nofun)
  have known : (dispatch.record fd App.eventRead).channelAt own = .ok channel :=
    EventLoop.channelAt_ok found
  have map : (dispatch.record fd App.eventRead).channelMap = dispatch.channelMap := rfl
  have noWrite : ¬ (App.eventRead &&& App.eventWrite ≠ 0 ∧ channel.eventWriteCallback.isSome) :=
    fun both => both.1 (by decide)
  rw [channelEventActivate]
  simp only [map]
  rw [if_neg (by omega), if_neg (by omega), ChannelMap.read_ok inside, entry]
  simp only [bind, Except.bind, known, if_neg (not_not_intro place.symm), if_neg noWrite]
  by_cases called : channel.eventReadCallback.isSome
  · have both : App.eventRead &&& App.eventRead ≠ 0 ∧ channel.eventReadCallback.isSome :=
      ⟨by decide, called⟩
    rw [if_pos both, if_pos called]
    cases performAll dispatcher own (dispatch.record fd App.eventRead) reads with
    | error stop => rfl
    | ok later => rfl
  · rw [if_neg fun both => called both.2, if_neg called]
    rfl

theorem activate_write (positive : 0 ≤ fd) (entry : dispatch.channelMap.lookup fd.toNat = some own)
    (found : dispatch.channels[own]? = some channel) (place : channel.fd = fd) :
    channelEventActivate dispatcher reads writes dispatch fd App.eventWrite =
      if channel.eventWriteCallback.isSome then
        performAll dispatcher own (dispatch.record fd App.eventWrite) writes
      else .ok (dispatch.record fd App.eventWrite) := by
  have inside := ChannelMap.lt_of_lookup (by rw [entry]; exact nofun)
  have known : (dispatch.record fd App.eventWrite).channelAt own = .ok channel :=
    EventLoop.channelAt_ok found
  have map : (dispatch.record fd App.eventWrite).channelMap = dispatch.channelMap := rfl
  have noRead : ¬ (App.eventWrite &&& App.eventRead ≠ 0 ∧ channel.eventReadCallback.isSome) :=
    fun both => both.1 (by decide)
  rw [channelEventActivate]
  simp only [map]
  rw [if_neg (by omega), if_neg (by omega), ChannelMap.read_ok inside, entry]
  simp only [bind, Except.bind, known, if_neg (not_not_intro place.symm), if_neg noRead]
  by_cases called : channel.eventWriteCallback.isSome
  · have both : App.eventWrite &&& App.eventWrite ≠ 0 ∧ channel.eventWriteCallback.isSome :=
      ⟨by decide, called⟩
    rw [if_pos called]
    exact if_pos both
  · rw [if_neg called]
    exact if_neg fun both => called both.2

/-- An empty entry inside the table is read through. -/
theorem activate_empty {revents : BitVec 32} (positive : 0 ≤ fd)
    (inside : fd < dispatch.channelMap.nentries)
    (empty : dispatch.channelMap.lookup fd.toNat = none) :
    channelEventActivate dispatcher reads writes dispatch fd revents = .error .emptySlot := by
  have map : (dispatch.record fd revents).channelMap = dispatch.channelMap := rfl
  have within : fd.toNat < dispatch.channelMap.nentries := by omega
  rw [channelEventActivate]
  simp only [map]
  rw [if_neg (by omega), if_neg (by omega), ChannelMap.read_ok within, empty]
  rfl

end Dispatch

/-- What a dispatcher does for one entry of what was reported. -/
inductive Action where
  | skip
  | close (fd : Int)
  | activate (fd : Int) (readable writable : Bool)
  deriving DecidableEq, Repr

/-- A dispatcher with its `dispatch`, taken apart into the system call that reports, and the
entries of the report one after the other. -/
structure Backend (Data Report Batch : Type) extends EventDispatcher Data where
  wait : Data → Report → Option (Data × Batch)
  next : Data → Batch → Option (Action × Batch)
  close : Data → Int → Data
  takeDescriptor : Data → Int → Data

/-- The loop of a thread, with what is left of the last report while it dispatches. -/
structure Running (Data Batch : Type) where
  dispatch : Dispatch Data
  batch : Option Batch

inductive LoopEvent (Data Report : Type) where
  /-- The system call of `dispatch` returns. -/
  | wait (report : Report)
  /-- `dispatch` comes to the next entry, and the callbacks it calls do as given. -/
  | serve (reads writes : List Effect)
  /-- `event_loop_handle_pending_channel` behind `dispatch` or before `event_loop_run` -/
  | handlePending
  /-- Another part of the process queues an addition or a change of events. -/
  | queueAdd (channel : Nat) (memory : Bool)
  | queueUpdate (channel : Nat) (events : BitVec 32)
  /-- Another part of the process closes or opens a descriptor. -/
  | close (fd : Int)
  | takeDescriptor (fd : Int)

namespace Running

variable {Data Report Batch : Type} (backend : Backend Data Report Batch)

/-- One entry of a report. -/
def serve (reads writes : List Effect) (dispatch : Dispatch Data) (batch : Batch) :
    Except Stop (Dispatch Data × Batch) :=
  match backend.next dispatch.dispatcherData batch with
  | none => .ok (dispatch, batch)
  | some (.skip, later) => .ok (dispatch, later)
  | some (.close fd, later) =>
    .ok ({ dispatch with
      dispatcherData := backend.close dispatch.dispatcherData fd
      closed := dispatch.closed ++ [fd] }, later)
  | some (.activate fd readable writable, later) => do
    let dispatch ← dispatch.activateReady backend.toEventDispatcher reads writes fd readable
      writable
    return (dispatch, later)

/-- A step of the loop or of its surroundings. An event that cannot happen changes
nothing. -/
def step (running : Running Data Batch) :
    LoopEvent Data Report → Except Stop (Running Data Batch)
  | .wait report =>
    match running.batch, backend.wait running.dispatch.dispatcherData report with
    | none, some (dispatcherData, batch) =>
      .ok ⟨{ running.dispatch with dispatcherData }, some batch⟩
    | _, _ => .ok running
  | .serve reads writes =>
    match running.batch with
    | none => .ok running
    | some batch => do
      let (dispatch, batch) ← serve backend reads writes running.dispatch batch
      return ⟨dispatch, some batch⟩
  | .handlePending =>
    if (running.batch.bind (backend.next running.dispatch.dispatcherData)).isNone then do
      let dispatch ← running.dispatch.handlePendingChannel backend.toEventDispatcher
      return ⟨dispatch, none⟩
    else .ok running
  | .queueAdd channel memory =>
    .ok { running with dispatch := { running.dispatch with
        pending := running.dispatch.pending ++ [.add channel memory] } }
  | .queueUpdate channel events =>
    .ok { running with dispatch := { running.dispatch with
        toEventLoop := running.dispatch.setEvents channel events
        pending := running.dispatch.pending ++ [.update channel] } }
  | .close fd =>
    .ok { running with dispatch := { running.dispatch with
        dispatcherData := backend.close running.dispatch.dispatcherData fd } }
  | .takeDescriptor fd =>
    .ok { running with dispatch := { running.dispatch with
        dispatcherData := backend.takeDescriptor running.dispatch.dispatcherData fd } }

end Running

/-- What holds of a descriptor when the system call looks at it. -/
structure Conditions where
  readable : Bool
  writable : Bool
  error : Bool
  hangUp : Bool
  deriving DecidableEq, Repr

/-- `POLLERR` -/
def pollErr : BitVec 16 := 0x008

/-- `POLLHUP` -/
def pollHup : BitVec 16 := 0x010

namespace PollSet

/-- The events `poll` returns: those asked for, errors and hang-ups. -/
def revents (events : BitVec 16) (conditions : Conditions) : BitVec 16 :=
  (if conditions.readable then events &&& pollRdNorm else 0) |||
    (if conditions.writable then events &&& pollWrNorm else 0) |||
    (if conditions.error then pollErr else 0) ||| (if conditions.hangUp then pollHup else 0)

/-- `poll`, which leaves out the free slots. -/
def poll (set : PollSet) (conditions : Int → Conditions) : PollSet where
  eventSet := set.eventSet.map fun slot => { slot with
    revents := if slot.fd < 0 then 0 else revents slot.events (conditions slot.fd) }
  size := (List.length_map _).trans set.size

/-- What `poll` returns. -/
def ready (set : PollSet) : Nat :=
  set.eventSet.countP fun slot => slot.revents ≠ 0

end PollSet

/-- `poll_dispatcher`. Of a report it knows the index and `ready_number`. -/
def pollBackend : Backend PollSet (Int → Conditions) (Nat × Nat) where
  toEventDispatcher := pollDispatcher
  wait set conditions := some (set.poll conditions, 0, (set.poll conditions).ready)
  next set batch :=
    if batch.2 = 0 then none
    else
      match set.eventSet[batch.1]? with
      | none => none
      | some pollfd =>
        if pollfd.fd < 0 then some (.skip, batch.1 + 1, batch.2)
        else if pollfd.revents.toInt > 0 then
          some (.activate pollfd.fd (pollfd.revents &&& pollRdNorm ≠ 0)
            (pollfd.revents &&& pollWrNorm ≠ 0), batch.1 + 1, batch.2 - 1)
        else some (.skip, batch.1 + 1, batch.2)
  -- `poll` finds the slots as they are
  close set _ := set
  takeDescriptor set _ := set

/-- `MAXEVENTS` -/
def maxEvents : Nat := 128

namespace Epoll

def control (kernel : Kernel) (control : App.EpollControl) (channel : Channel) :
    Except Stop (Int × Kernel) :=
  match kernel.epollCtl control channel.fd channel.epollEvents with
  | some kernel => .ok (0, kernel)
  | none => .error .epollCtl

/-- The events `epoll_wait` returns: those asked for, errors and hang-ups. -/
def revents (events : BitVec 32) (conditions : Conditions) : BitVec 32 :=
  (if conditions.readable then events &&& App.epollIn else 0) |||
    (if conditions.writable then events &&& App.epollOut else 0) |||
    (if conditions.error then App.epollErr else 0) |||
    (if conditions.hangUp then App.epollHup else 0)

/-- The events of a descriptor, none if it is not in the epoll instance. -/
def reported (kernel : Kernel) (conditions : Int → Conditions) (fd : Int) : BitVec 32 :=
  match kernel.registered fd with
  | none => 0
  | some events => revents events (conditions fd)

/-- `epoll_wait`, which reports some of the descriptors that have events, each once. -/
def wait (kernel : Kernel) (report : List Int × (Int → Conditions)) :
    Option (Kernel × List App.EpollEvent) :=
  if report.1.Nodup ∧ report.1.length ≤ maxEvents ∧
      ∀ fd ∈ report.1, reported kernel report.2 fd ≠ 0 then
    some (kernel, report.1.map fun fd => ⟨fd, reported kernel report.2 fd⟩)
  else none

/-- The body of the loop of `epoll_dispatch`. -/
def next (_ : Kernel) : List App.EpollEvent → Option (Action × List App.EpollEvent)
  | [] => none
  | event :: later =>
    if event.failed then some (.close event.fd, later)
    else some (.activate event.fd (event.events &&& App.epollIn ≠ 0)
      (event.events &&& App.epollOut ≠ 0), later)

end Epoll

/-- `epoll_dispatcher` -/
def epollBackend : Backend Kernel (List Int × (Int → Conditions)) (List App.EpollEvent) where
  add kernel := Epoll.control kernel .add
  del kernel := Epoll.control kernel .del
  update kernel := Epoll.control kernel .mod
  wait := Epoll.wait
  next := Epoll.next
  close := Kernel.close
  takeDescriptor := Kernel.takeDescriptor

end Yolanda.Lib
